import DiscoveryClient.NvmeServer

/-! The controller's configuration and status registers. The host writes the configuration; the
status follows it, and a keep-alive timer that fires adds a fatal status to it. -/

namespace DiscoveryClient

namespace Nvme

inductive ConfigEvent
  | write (value : UInt32)
  | keepAliveExpired

def NvmeController.configure (ctrl : NvmeController) : ConfigEvent → NvmeController
  | .write value => ctrl.updateControllerConfiguration value
  | .keepAliveExpired => ctrl.keepAliveExpired

/-- A controller from its creation on. Writes hold the controller's lock; the timer may fire between
any two of them. -/
def controllerConfig : Machine NvmeController ConfigEvent where
  init ctrl := ∃ controllerID kato hostNqn, ctrl = newController controllerID kato hostNqn
  step ctrl event ctrl' := ctrl.configure event = ctrl'

def cstsShstMask : UInt32 := 0xc

namespace NvmeController

/-- What the two registers say about each other. -/
structure Consistent (ctrl : NvmeController) : Prop where
  ready_enabled : ctrl.csts &&& cstsRdy ≠ 0 → ccEn ctrl.cc = true
  enabled_ready : ccEn ctrl.cc = true → ctrl.csts &&& cstsRdy ≠ 0 ∨ ctrl.csts &&& cstsCfs ≠ 0
  shn : ccShn ctrl.cc = false

/-- A controller that is not ready and reports that it is shut down. -/
def ShutDown (ctrl : NvmeController) : Prop :=
  ctrl.csts &&& cstsRdy = 0 ∧ ctrl.csts &&& cstsShstMask = cstsShstCmplt

instance (ctrl : NvmeController) : Decidable ctrl.ShutDown := inferInstanceAs (Decidable (_ ∧ _))

/-- A fact about the values of a list, evaluated one by one. -/
theorem forall_of_all {p : UInt32 → Prop} [DecidablePred p] {values : List UInt32}
    (h : values.all (fun x => decide (p x)) = true) : ∀ x ∈ values, p x :=
  fun x hx => of_decide_eq_true (List.all_eq_true.mp h x hx)

/-- The values that the status takes: while the controller is enabled, and while it is not. -/
structure Registers (ctrl : NvmeController) : Prop where
  enabled : ccEn ctrl.cc = true → ctrl.csts ∈ [1, 2, 3]
  disabled : ccEn ctrl.cc = false → ctrl.csts ∈ [0, 2, 8, 10]
  shn : ccShn ctrl.cc = false

variable {ctrl : NvmeController}

theorem Registers.consistent (h : ctrl.Registers) : ctrl.Consistent where
  ready_enabled hready := by
    have hclear : ∀ csts ∈ [0, 2, 8, 10], csts &&& cstsRdy = 0 := forall_of_all (by decide)
    by_contra hen
    exact hready (hclear _ (h.disabled (Bool.eq_false_iff.mpr hen)))
  enabled_ready hen := by
    have hset : ∀ csts ∈ [1, 2, 3], csts &&& cstsRdy ≠ 0 ∨ csts &&& cstsCfs ≠ 0 :=
      forall_of_all (by decide)
    exact hset _ (h.enabled hen)
  shn := h.shn

theorem registers_newController (controllerID : UInt16) (kato : UInt32) (hostNqn : GoString) :
    (newController controllerID kato hostNqn).Registers where
  enabled hen := by
    have hcc : ccEn 0 = false := by decide
    exact absurd (hcc.symm.trans hen) (by decide)
  disabled _ := by
    show (0 : UInt32) ∈ [0, 2, 8, 10]
    decide
  shn := by
    show ccShn 0 = false
    decide

theorem Registers.keepAliveExpired (h : ctrl.Registers) : ctrl.keepAliveExpired.Registers := by
  have hen : ∀ csts ∈ [1, 2, 3], (if csts &&& cstsCfs = 0 then csts ||| cstsCfs else csts) ∈
      ([1, 2, 3] : List UInt32) := forall_of_all (by decide)
  have hdis : ∀ csts ∈ [0, 2, 8, 10], (if csts &&& cstsCfs = 0 then csts ||| cstsCfs else csts) ∈
      ([0, 2, 8, 10] : List UInt32) := forall_of_all (by decide)
  have hcsts : ctrl.keepAliveExpired.csts =
      if ctrl.csts &&& cstsCfs = 0 then ctrl.csts ||| cstsCfs else ctrl.csts := by
    unfold NvmeController.keepAliveExpired
    split <;> rfl
  have hcc : ctrl.keepAliveExpired.cc = ctrl.cc := by
    unfold NvmeController.keepAliveExpired
    split <;> rfl
  refine ⟨?_, ?_, ?_⟩
  · rw [hcc, hcsts]
    exact fun henabled => hen _ (h.enabled henabled)
  · rw [hcc, hcsts]
    exact fun hdisabled => hdis _ (h.disabled hdisabled)
  · rw [hcc]
    exact h.shn

/-- `start` reports the controller ready, or that its configuration is not supported. -/
theorem start_csts (ctrl : NvmeController) : ctrl.start.csts ∈ [1, 2] ∧ ctrl.start.cc = ctrl.cc := by
  have hvalues : cstsCfs ∈ ([1, 2] : List UInt32) ∧ cstsRdy ∈ ([1, 2] : List UInt32) := by decide
  unfold start
  split
  next => exact ⟨hvalues.1, rfl⟩
  next => exact ⟨hvalues.2, rfl⟩

/-- The status that a written value leads to before its shutdown notification is looked at. -/
def enabledCsts (ctrl : NvmeController) (value : UInt32) : UInt32 :=
  if ccEn value && !ccEn ctrl.cc then { ctrl with cc := value }.start.csts else ctrl.csts

/-- What a write does, when no shutdown is noted in the configuration before it. A value that
disables the controller clears the configuration, and with it the notification that it carries. -/
theorem update_eq (hshn : ccShn ctrl.cc = false) (value : UInt32) :
    let after := ctrl.updateControllerConfiguration value
    (after.cc, after.csts) =
      if !ccEn value && ccEn ctrl.cc then (0, ctrl.csts &&& ~~~cstsRdy)
      else if ccShn value then (0, ctrl.enabledCsts value &&& ~~~cstsRdy ||| cstsShstCmplt)
      else (value, ctrl.enabledCsts value) := by
  intro after
  have hzero : ccEn 0 = false ∧ ccShn 0 = false := by decide
  obtain ⟨-, hstart⟩ := start_csts { ctrl with cc := value }
  cases hen : ccEn value with
  | false =>
    cases hold : ccEn ctrl.cc with
    | false =>
      cases hvalue : ccShn value with
      | false => simp [after, updateControllerConfiguration, enabledCsts, hen, hold, hvalue, hshn]
      | true =>
        simp [after, updateControllerConfiguration, enabledCsts, hen, hold, hvalue, hshn, clear]
    | true =>
      simp [after, updateControllerConfiguration, hen, hold, hshn, clear, hzero]
  | true =>
    cases hold : ccEn ctrl.cc with
    | false =>
      cases hvalue : ccShn value with
      | false =>
        simp [after, updateControllerConfiguration, enabledCsts, hen, hold, hvalue, hshn, hstart]
      | true =>
        simp [after, updateControllerConfiguration, enabledCsts, hen, hold, hvalue, hshn, hstart,
          clear]
    | true =>
      cases hvalue : ccShn value with
      | false => simp [after, updateControllerConfiguration, enabledCsts, hen, hold, hvalue, hshn]
      | true =>
        simp [after, updateControllerConfiguration, enabledCsts, hen, hold, hvalue, hshn, clear]

/-- A value that keeps the controller enabled, or enables it, leaves a status of an enabled one. -/
theorem Registers.enabledCsts (h : ctrl.Registers) {value : UInt32} (hen : ccEn value = true) :
    ctrl.enabledCsts value ∈ [1, 2, 3] := by
  have hmore : ∀ csts ∈ [1, 2], csts ∈ ([1, 2, 3] : List UInt32) := forall_of_all (by decide)
  unfold NvmeController.enabledCsts
  split
  next => exact hmore _ (start_csts _).1
  next hold =>
    rw [hen, Bool.true_and, Bool.not_eq_true', Bool.not_eq_false] at hold
    exact h.enabled hold

theorem Registers.disabledCsts (h : ctrl.Registers) {value : UInt32} (hen : ccEn value = false)
    (hold : ccEn ctrl.cc = false) : ctrl.enabledCsts value ∈ [0, 2, 8, 10] := by
  unfold NvmeController.enabledCsts
  rw [hen, Bool.false_and, if_neg Bool.false_ne_true]
  exact h.disabled hold

theorem Registers.of_cleared {csts : UInt32} (hcc : ctrl.cc = 0) (hcsts : ctrl.csts = csts)
    (hmem : csts ∈ [0, 2, 8, 10]) : ctrl.Registers := by
  have hzero : ccEn 0 = false ∧ ccShn 0 = false := by decide
  refine ⟨?_, ?_, ?_⟩
  · rw [hcc, hzero.1]
    exact fun hfalse => absurd hfalse Bool.false_ne_true
  · rw [hcsts]
    exact fun _ => hmem
  · rw [hcc]
    exact hzero.2

/-- The status is one of an enabled or a disabled controller, so a notified shutdown completes. -/
theorem Registers.shutCsts (h : ctrl.Registers) {value : UInt32}
    (hkept : ¬(ccEn value = false ∧ ccEn ctrl.cc = true)) :
    ctrl.enabledCsts value &&& ~~~cstsRdy ||| cstsShstCmplt ∈ ([8, 10] : List UInt32) := by
  have hshut : ∀ csts ∈ [1, 2, 3] ++ [0, 2, 8, 10],
      csts &&& ~~~cstsRdy ||| cstsShstCmplt ∈ ([8, 10] : List UInt32) := forall_of_all (by decide)
  cases hen : ccEn value with
  | true => exact hshut _ (List.mem_append_left _ (h.enabledCsts hen))
  | false =>
    cases hold : ccEn ctrl.cc with
    | true => exact absurd ⟨hen, hold⟩ hkept
    | false => exact hshut _ (List.mem_append_right _ (h.disabledCsts hen hold))

theorem Registers.update (h : ctrl.Registers) (value : UInt32) :
    (ctrl.updateControllerConfiguration value).Registers ∧ (ccShn value = true →
      ((ctrl.updateControllerConfiguration value).ShutDown ↔
        (ccEn ctrl.cc = true → ccEn value = true))) := by
  have hupdate := update_eq h.shn value
  by_cases hoff : ccEn value = false ∧ ccEn ctrl.cc = true
  · -- the controller is disabled: its status has lost the ready bit, and nothing else is said
    have hmem : ∀ csts ∈ [1, 2, 3], csts &&& ~~~cstsRdy ∈ ([0, 2, 8, 10] : List UInt32) ∧
        (csts &&& ~~~cstsRdy) &&& cstsShstMask ≠ cstsShstCmplt := forall_of_all (by decide)
    obtain ⟨hcleared, hnot⟩ := hmem _ (h.enabled hoff.2)
    rw [hoff.1, hoff.2] at hupdate
    simp only [Bool.not_false, Bool.and_self, if_true, Prod.mk.injEq] at hupdate
    obtain ⟨hcc, hcsts⟩ := hupdate
    refine ⟨.of_cleared hcc hcsts hcleared, fun _ => iff_of_false ?_ ?_⟩
    · rintro ⟨-, hshut⟩
      rw [hcsts] at hshut
      exact hnot hshut
    · intro hkeep
      exact absurd (hoff.1.symm.trans (hkeep hoff.2)) Bool.false_ne_true
  · have hcond : (!ccEn value && ccEn ctrl.cc) = false := by
      rw [Bool.eq_false_iff]
      simpa using hoff
    rw [hcond, if_neg Bool.false_ne_true] at hupdate
    cases hshn : ccShn value with
    | true =>
      have hvalues : ∀ csts ∈ [8, 10], csts ∈ ([0, 2, 8, 10] : List UInt32) ∧
          csts &&& cstsRdy = 0 ∧ csts &&& cstsShstMask = cstsShstCmplt := forall_of_all (by decide)
      rw [hshn, if_pos rfl, Prod.mk.injEq] at hupdate
      obtain ⟨hcc, hcsts⟩ := hupdate
      obtain ⟨hmem, hshut⟩ := hvalues _ (h.shutCsts hoff)
      refine ⟨.of_cleared hcc hcsts hmem, fun _ => iff_of_true ?_ ?_⟩
      · unfold ShutDown
        rw [hcsts]
        exact hshut
      · intro hold
        by_contra hen
        exact hoff ⟨Bool.eq_false_iff.mpr hen, hold⟩
    | false =>
      rw [hshn, if_neg Bool.false_ne_true, Prod.mk.injEq] at hupdate
      obtain ⟨hcc, hcsts⟩ := hupdate
      refine ⟨⟨?_, ?_, ?_⟩, fun hfalse => absurd hfalse Bool.false_ne_true⟩
      · rw [hcc, hcsts]
        exact h.enabledCsts
      · rw [hcc, hcsts]
        intro hen
        refine h.disabledCsts hen (Bool.eq_false_iff.mpr fun hold => hoff ⟨hen, hold⟩)
      · rw [hcc]
        exact hshn

end NvmeController

open NvmeController

theorem registers_of_reaches {ctrl : NvmeController} (reaches : controllerConfig.Reaches ctrl) :
    ctrl.Registers := by
  obtain ⟨past, run⟩ := reaches
  have always := run.always (I := NvmeController.Registers) ?_ ?_
  · exact always.2
  · rintro ctrl ⟨controllerID, kato, hostNqn, rfl⟩
    exact registers_newController controllerID kato hostNqn
  · rintro ctrl event _ registers rfl
    cases event with
    | write value => exact (registers.update value).1
    | keepAliveExpired => exact registers.keepAliveExpired

/-- The two registers agree in every state. A written shutdown notification is carried out and
reported exactly when the value that carries it does not disable the controller at the same time. -/
theorem configuration_consistent_iff {ctrl : NvmeController}
    (reaches : controllerConfig.Reaches ctrl) :
    ctrl.Consistent ∧ ∀ value, ccShn value = true →
      ((ctrl.updateControllerConfiguration value).ShutDown ↔
        (ccEn ctrl.cc = true → ccEn value = true)) := by
  have registers := registers_of_reaches reaches
  exact ⟨registers.consistent, fun value => (registers.update value).2⟩

/-- What the discovery client writes to enable a controller. -/
def enabling : UInt32 := 0x460001

/-- A controller of a host that has just been enabled. -/
def enabledController : NvmeController :=
  (newController 1 0 []).updateControllerConfiguration enabling

theorem enabledController_reaches : controllerConfig.Reaches enabledController := by
  have start : controllerConfig.Reaches (newController 1 0 []) := ⟨[], .start ⟨1, 0, [], rfl⟩⟩
  exact start.next (.write enabling) rfl

/-- The host asks for a shutdown and leaves the controller enabled. -/
theorem configuration_consistent_iff_enabled :
    ccShn (0x4000 ||| enabling) = true ∧
      (enabledController.updateControllerConfiguration (0x4000 ||| enabling)).ShutDown := by
  have hshn : ccShn (0x4000 ||| enabling) = true := by decide
  have hen : ccEn (0x4000 ||| enabling) = true := by decide
  exact ⟨hshn, ((configuration_consistent_iff enabledController_reaches).2 _ hshn).mpr fun _ => hen⟩

/-- The host asks for a shutdown with the enable bit cleared: nothing reports that it has taken
place. -/
theorem shutdown_unreported :
    controllerConfig.Reaches enabledController ∧ ccShn 0x4000 = true ∧
      (enabledController.updateControllerConfiguration 0x4000).csts = 0 ∧
      ¬(enabledController.updateControllerConfiguration 0x4000).ShutDown := by
  refine ⟨enabledController_reaches, ?_, ?_, ?_⟩
  · decide
  · decide
  · decide

end Nvme

end DiscoveryClient
