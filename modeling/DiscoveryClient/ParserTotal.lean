import DiscoveryClient.CacheReachable

namespace DiscoveryClient

open GoString

/-- The values a flag takes without an error. -/
def Flag.accepts (adjustTraddr : GoString → Bool) (token : GoString) : Flag → Bool
  | .traddr => adjustTraddr (trimSpace token)
  | .transport => trimSpace token = ascii "tcp"
  | .trsvcid | .ctrlLossTMO => (parseInt 32 (trimSpace token)).isSome
  | .hostnqn | .hostid | .subsysnqn | .persistent => true

/-- The tokens start with complete settings, each flag with the value it takes, up to `rest`. -/
inductive ReadUpTo (adjustTraddr : GoString → Bool) (rest : List GoString) : List GoString → Prop
  | here : ReadUpTo adjustTraddr rest rest
  | switch {token : GoString} {tokens : List GoString} :
      Flag.ofField (trimSpace token) = some .persistent →
      ReadUpTo adjustTraddr rest tokens → ReadUpTo adjustTraddr rest (token :: tokens)
  | value {token value : GoString} {tokens : List GoString} {flag : Flag} :
      Flag.ofField (trimSpace token) = some flag → flag ≠ .persistent →
      flag.accepts adjustTraddr value = true →
      ReadUpTo adjustTraddr rest tokens → ReadUpTo adjustTraddr rest (token :: value :: tokens)

def lineTokens (line : GoString) : List GoString :=
  fieldsFunc splitSpacesAndEqualSign (trimStringFromHashtag (trimSpace (dropCR line)))

/-- Behind complete settings the tokens end in a flag whose value is missing. -/
def EndsInFlag (adjustTraddr : GoString → Bool) (tokens : List GoString) : Prop :=
  ∃ token flag, ReadUpTo adjustTraddr [token] tokens ∧
    Flag.ofField (trimSpace token) = some flag ∧ flag ≠ .persistent

/-- A line the scanner can hold and whose tokens are complete settings. -/
def CompleteLine (adjustTraddr : GoString → Bool) (line : GoString) : Prop :=
  line.length < maxScanTokenSize ∧ ReadUpTo adjustTraddr [] (lineTokens line)

/-- Behind complete lines there is one that ends in a flag whose value is missing. -/
def MissesValue (adjustTraddr : GoString → Bool) (lines : List GoString) : Prop :=
  ∃ before line after, lines = before ++ line :: after ∧
    (∀ l ∈ before, CompleteLine adjustTraddr l) ∧
    line.length < maxScanTokenSize ∧ EndsInFlag adjustTraddr (lineTokens line)

section Tokens

variable {adjustTraddr : GoString → Bool} {token value : GoString} {rest tokens : List GoString}
  {flag : Flag} {e : Entry}

theorem Flag.set_ok_iff :
    (∃ e', flag.set adjustTraddr e value = .ok e') ↔ flag.accepts adjustTraddr value = true := by
  cases flag with
  | traddr | transport =>
    simp only [Flag.set, Flag.accepts]
    split <;> simp_all
  | trsvcid | ctrlLossTMO =>
    simp only [Flag.set, Flag.accepts]
    cases parseInt 32 (trimSpace value) <;> simp
  | hostnqn | hostid | subsysnqn | persistent => simp [Flag.set, Flag.accepts]

theorem readUpTo_unknown (hflag : Flag.ofField (trimSpace token) = none)
    (hne : rest ≠ token :: tokens) : ¬ReadUpTo adjustTraddr rest (token :: tokens) := by
  intro h
  cases h with
  | here => exact hne rfl
  | switch hswitch => simp [hflag] at hswitch
  | value hvalue => simp [hflag] at hvalue

theorem readUpTo_switch (hflag : Flag.ofField (trimSpace token) = some .persistent)
    (hne : rest ≠ token :: tokens) :
    ReadUpTo adjustTraddr rest (token :: tokens) ↔ ReadUpTo adjustTraddr rest tokens := by
  constructor
  · intro h
    cases h with
    | here => exact absurd rfl hne
    | switch _ htokens => exact htokens
    | value hvalue hnot =>
      rw [hflag] at hvalue
      exact absurd (Option.some.inj hvalue).symm hnot
  · exact ReadUpTo.switch hflag

theorem readUpTo_value (hflag : Flag.ofField (trimSpace token) = some flag)
    (hnot : flag ≠ .persistent) (hne : rest ≠ token :: value :: tokens) :
    ReadUpTo adjustTraddr rest (token :: value :: tokens) ↔
      flag.accepts adjustTraddr value = true ∧ ReadUpTo adjustTraddr rest tokens := by
  constructor
  · intro h
    cases h with
    | here => exact absurd rfl hne
    | switch hswitch =>
      rw [hflag] at hswitch
      exact absurd (Option.some.inj hswitch) hnot
    | value hvalue _ haccepts htokens =>
      rw [hflag] at hvalue
      cases Option.some.inj hvalue
      exact ⟨haccepts, htokens⟩
  · rintro ⟨haccepts, htokens⟩
    exact .value hflag hnot haccepts htokens

theorem parseTokens_ok_iff :
    (∃ e', parseTokens adjustTraddr tokens e = .ok e') ↔ ReadUpTo adjustTraddr [] tokens := by
  fun_induction parseTokens adjustTraddr tokens e with
  | case1 e => exact ⟨fun _ => .here, fun _ => ⟨e, rfl⟩⟩
  | case2 token rest e hflag =>
    have hno := @readUpTo_unknown adjustTraddr token [] rest hflag (by simp)
    simp [hno]
  | case3 token rest e hflag ih => rw [ih, readUpTo_switch hflag (by simp)]
  | case4 token e flag hnot hflag =>
    constructor
    · simp
    · intro h
      cases h with
      | switch hswitch =>
        rw [hflag] at hswitch
        exact absurd (Option.some.inj hswitch) hnot
  | case5 token e flag hnot hflag value rest err hset =>
    rw [readUpTo_value hflag hnot (by simp), ← @Flag.set_ok_iff adjustTraddr value flag e, hset]
    simp
  | case6 token e flag hnot hflag value rest e₁ hset ih =>
    rw [ih, readUpTo_value hflag hnot (by simp), ← @Flag.set_ok_iff adjustTraddr value flag e, hset]
    simp

theorem endsInFlag_switch (hflag : Flag.ofField (trimSpace token) = some .persistent) :
    EndsInFlag adjustTraddr (token :: tokens) ↔ EndsInFlag adjustTraddr tokens := by
  constructor
  · rintro ⟨last, flag, hread, hlast, hnot⟩
    have hne : [last] ≠ token :: tokens := by
      rintro heq
      cases heq
      rw [hflag] at hlast
      exact hnot (Option.some.inj hlast).symm
    exact ⟨last, flag, (readUpTo_switch hflag hne).mp hread, hlast, hnot⟩
  · rintro ⟨last, flag, hread, hlast, hnot⟩
    exact ⟨last, flag, .switch hflag hread, hlast, hnot⟩

theorem endsInFlag_value (hflag : Flag.ofField (trimSpace token) = some flag)
    (hnot : flag ≠ .persistent) :
    EndsInFlag adjustTraddr (token :: value :: tokens) ↔
      flag.accepts adjustTraddr value = true ∧ EndsInFlag adjustTraddr tokens := by
  constructor
  · rintro ⟨last, flag', hread, hlast, hnot'⟩
    obtain ⟨haccepts, hread⟩ := (readUpTo_value hflag hnot (by simp)).mp hread
    exact ⟨haccepts, last, flag', hread, hlast, hnot'⟩
  · rintro ⟨haccepts, last, flag', hread, hlast, hnot'⟩
    exact ⟨last, flag', .value hflag hnot haccepts hread, hlast, hnot'⟩

theorem parseTokens_panics_iff :
    parseTokens adjustTraddr tokens e = .error .indexOutOfRange ↔
      EndsInFlag adjustTraddr tokens := by
  fun_induction parseTokens adjustTraddr tokens e with
  | case1 e =>
    constructor
    · simp
    · rintro ⟨last, flag, hread, -⟩
      cases hread
  | case2 token rest e hflag =>
    constructor
    · simp
    · rintro ⟨last, flag, hread, hlast, -⟩
      refine absurd hread (readUpTo_unknown hflag ?_)
      rintro heq
      cases heq
      simp [hflag] at hlast
  | case3 token rest e hflag ih => rw [ih, endsInFlag_switch hflag]
  | case4 token e flag hnot hflag => exact ⟨fun _ => ⟨token, flag, .here, hflag, hnot⟩, fun _ => rfl⟩
  | case5 token e flag hnot hflag value rest err hset =>
    rw [endsInFlag_value hflag hnot, ← @Flag.set_ok_iff adjustTraddr value flag e, hset]
    simp
  | case6 token e flag hnot hflag value rest e₁ hset ih =>
    rw [ih, endsInFlag_value hflag hnot, ← @Flag.set_ok_iff adjustTraddr value flag e, hset]
    simp

end Tokens

section Lines

variable {adjustTraddr : GoString → Bool} {line : GoString} {lines : List GoString}

/-- A blank line has no tokens, so the branch that skips it is no case of its own. -/
theorem parseLine_eq :
    parseLine adjustTraddr (dropCR line) =
      match parseTokens adjustTraddr (lineTokens line) {} with
      | .error f => .error f
      | .ok e =>
        match { e with entrySource := .user : Entry }.verify with
        | .ok () => .ok (some { e with entrySource := .user })
        | .error _ => .ok none := by
  unfold parseLine lineTokens
  simp only
  split
  next hblank =>
    rw [hblank]
    rfl
  next =>
    generalize parseTokens adjustTraddr _ _ = parsed
    cases parsed with
    | error f => rfl
    | ok e => rfl

theorem parseLine_ok_iff :
    (∃ entry, parseLine adjustTraddr (dropCR line) = .ok entry) ↔
      ReadUpTo adjustTraddr [] (lineTokens line) := by
  rw [← @parseTokens_ok_iff adjustTraddr (lineTokens line) {}, parseLine_eq]
  cases parseTokens adjustTraddr (lineTokens line) {} with
  | error f => simp
  | ok e =>
    simp only [Except.ok.injEq, exists_eq', iff_true]
    cases { e with entrySource := .user : Entry }.verify with
    | ok _ => exact ⟨_, rfl⟩
    | error _ => exact ⟨_, rfl⟩

theorem parseLine_panics_iff :
    parseLine adjustTraddr (dropCR line) = .error .indexOutOfRange ↔
      EndsInFlag adjustTraddr (lineTokens line) := by
  rw [← @parseTokens_panics_iff adjustTraddr (lineTokens line) {}, parseLine_eq]
  cases parseTokens adjustTraddr (lineTokens line) {} with
  | error f => simp
  | ok e =>
    simp only [reduceCtorEq, iff_false]
    cases { e with entrySource := .user : Entry }.verify with
    | ok _ => simp
    | error _ => simp

theorem missesValue_cons :
    MissesValue adjustTraddr (line :: lines) ↔
      line.length < maxScanTokenSize ∧ (EndsInFlag adjustTraddr (lineTokens line) ∨
        (ReadUpTo adjustTraddr [] (lineTokens line) ∧ MissesValue adjustTraddr lines)) := by
  constructor
  · rintro ⟨before, last, after, hsplit, hbefore, hlen, hends⟩
    cases before with
    | nil =>
      cases hsplit
      exact ⟨hlen, Or.inl hends⟩
    | cons first before =>
      cases hsplit
      obtain ⟨⟨hfirst, hread⟩, hbefore⟩ := List.forall_mem_cons.mp hbefore
      exact ⟨hfirst, Or.inr ⟨hread, before, last, after, rfl, hbefore, hlen, hends⟩⟩
  · rintro ⟨hlen, hends | ⟨hread, before, last, after, rfl, hbefore, hlast, hends⟩⟩
    · exact ⟨[], line, lines, rfl, by simp, hlen, hends⟩
    · exact ⟨line :: before, last, after, rfl, List.forall_mem_cons.mpr ⟨⟨hlen, hread⟩, hbefore⟩,
        hlast, hends⟩

theorem parseLines_panics_iff :
    parseLines adjustTraddr lines = .error .indexOutOfRange ↔ MissesValue adjustTraddr lines := by
  induction lines with
  | nil => simp [parseLines, MissesValue]
  | cons line lines ih =>
    rw [missesValue_cons, ← ih, ← @parseLine_panics_iff adjustTraddr line,
      ← @parseLine_ok_iff adjustTraddr line, parseLines]
    split
    next hlong =>
      have hnot : ¬line.length < maxScanTokenSize := by omega
      simp [hnot]
    next hshort =>
      have hlen : line.length < maxScanTokenSize := by omega
      cases parseLine adjustTraddr (dropCR line) with
      | error f => simp [hlen]
      | ok entry =>
        cases parseLines adjustTraddr lines with
        | error f => simp [hlen]
        | ok entries => simp

end Lines

/-- The parser is total exactly on the files none of whose lines ends in a flag without its value
while all lines before it are complete. -/
theorem parse_total_iff (adjustTraddr : GoString → Bool) (file : UserFile) :
    parse adjustTraddr file ≠ .error .indexOutOfRange ↔
      ∀ bytes readError, file = .content bytes readError →
        ¬MissesValue adjustTraddr (scanLines bytes) := by
  cases file with
  | unopenable => simp [parse]
  | content bytes readError =>
    have hlines := @parseLines_panics_iff adjustTraddr (scanLines bytes)
    have hparse : parse adjustTraddr (.content bytes readError) = .error .indexOutOfRange ↔
        parseLines adjustTraddr (scanLines bytes) = .error .indexOutOfRange := by
      rw [parse]
      cases parseLines adjustTraddr (scanLines bytes) with
      | error f => simp
      | ok entries => cases readError <;> simp
    rw [ne_eq, hparse, hlines]
    constructor
    · rintro hnot _ _ heq
      cases heq
      exact hnot
    · intro h
      exact h bytes readError rfl

theorem parse_total_iff_sample :
    parse (fun _ => true) sampleFile ≠ .error .indexOutOfRange ∧
      ¬MissesValue (fun _ => true)
        (scanLines (ascii "-t tcp -a 10.0.0.2 -s 8009 -q nqn.h -n nqn.c -l 60")) := by
  have hparse : parse (fun _ => true) sampleFile ≠ .error .indexOutOfRange := by
    rw [parse_sampleFile]
    simp
  exact ⟨hparse, (parse_total_iff (fun _ => true) sampleFile).mp hparse _ _ rfl⟩

/-- A line that ends in `-a`, with no address behind it. -/
theorem parse_indexes_out_of_range :
    ¬∀ (adjustTraddr : GoString → Bool) (file : UserFile),
      parse adjustTraddr file ≠ .error .indexOutOfRange := by
  intro h
  exact h (fun _ => true) (.content (ascii "-t tcp -s 8009 -q nqn.h -n nqn.c -a") false)
    (by decide +kernel)

end DiscoveryClient
