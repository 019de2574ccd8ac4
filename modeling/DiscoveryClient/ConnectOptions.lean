import DiscoveryClient.GoIP
import DiscoveryClient.GoDecimal

/-! The option string that is written for a connection, and what it says when it is taken apart
again at its commas. -/

namespace DiscoveryClient

open GoString

/-- `AdjustTraddr`, for a resolver that gives the first address of a name or the text of an error. -/
def adjustTraddr (lookupIP : GoString → Except GoString GoIP.IP) (traddr : GoString) :
    Except GoString GoString :=
  if ((GoIP.parseIP traddr).bind GoIP.to4).isSome then .ok traddr
  else if ((GoIP.parseIP traddr).bind GoIP.to16).isSome then .ok traddr
  else
    match lookupIP traddr with
    | .ok addr => .ok (GoIP.string addr)
    | .error err => .error err

theorem adjustTraddr_eq (lookupIP : GoString → Except GoString GoIP.IP) (traddr : GoString) :
    adjustTraddr lookupIP traddr =
      if (GoIP.parseIP traddr).isSome then .ok traddr else (lookupIP traddr).map GoIP.string := by
  unfold adjustTraddr
  cases hparse : GoIP.parseIP traddr with
  | none => cases lookupIP traddr <;> rfl
  | some ip =>
    have hlen := GoIP.length_of_parseIP hparse
    simp [GoIP.to16, hlen]

theorem comma_not_mem_adjustTraddr {lookupIP : GoString → Except GoString GoIP.IP}
    {traddr adjusted : GoString} (h : adjustTraddr lookupIP traddr = .ok adjusted) :
    0x2C ∉ adjusted := by
  rw [adjustTraddr_eq] at h
  split at h
  next hsome =>
    obtain ⟨ip, hip⟩ := Option.isSome_iff_exists.mp hsome
    cases Except.ok.inj h
    exact fun hmem => absurd (GoIP.addressByte_of_parseIP hip _ hmem) (by decide)
  next =>
    cases hlookup : lookupIP traddr with
    | error err => rw [hlookup] at h; cases h
    | ok addr =>
      rw [hlookup] at h
      cases Except.ok.inj h
      exact GoIP.comma_not_mem_string addr

namespace ConnectRequest

/-- The names of the options, in the order in which `ToOptions` writes them. -/
def optionNames : List String :=
  ["nqn", "transport", "traddr", "trsvcid", "hostnqn", "host_traddr", "ctrl_loss_tmo",
    "nr_io_queues", "hostid", "keep_alive_tmo", "dhchap_secret", "dhchap_ctrl_secret"]

def given (shown : Bool) (name : String) (value : GoString) : List (String × GoString) :=
  if shown then [(name, value)] else []

/-- The options that are written, each with its value. -/
def written (c : ConnectRequest) : List (String × GoString) :=
  ("nqn", c.subsysnqn) ::
    (given (c.transport ≠ []) "transport" c.transport ++
    given (c.traddr ≠ []) "traddr" c.traddr ++
    given (0 < c.trsvcid) "trsvcid" (formatInt c.trsvcid) ++
    given (c.hostnqn ≠ []) "hostnqn" c.hostnqn ++
    given (c.hostaddr ≠ []) "host_traddr" c.hostaddr ++
    given (-1 ≤ c.ctrlLossTMO) "ctrl_loss_tmo" (formatInt c.ctrlLossTMO) ++
    given (0 < c.maxIOQueues) "nr_io_queues" (formatInt c.maxIOQueues) ++
    given (c.hostid ≠ []) "hostid" c.hostid ++
    given (0 < c.kato) "keep_alive_tmo" (formatInt c.kato) ++
    given (c.dhChapSecret ≠ []) "dhchap_secret" c.dhChapSecret ++
    given (c.dhChapSecret ≠ [] ∧ c.dhChapControllerSecret ≠ []) "dhchap_ctrl_secret"
      c.dhChapControllerSecret)

def assignment (option : String × GoString) : GoString := ascii option.1 ++ 0x3D :: option.2

theorem intercalate_cons (sep : UInt8) (x : GoString) (xs : List GoString) :
    [sep].intercalate (x :: xs) = x ++ xs.flatMap (sep :: ·) := by
  induction xs generalizing x with
  | nil => simp [List.intercalate]
  | cons y xs ih =>
    rw [List.intercalate_cons_cons, ih, List.flatMap_cons, List.append_assoc,
      List.singleton_append, List.cons_append]

/-- The text in front of the value of an option other than the first. -/
def Introduces (lead name : String) : Prop := ascii lead = 0x2C :: (ascii name ++ [0x3D])

instance (lead name : String) : Decidable (Introduces lead name) :=
  inferInstanceAs (Decidable (_ = _))

theorem flatMap_given {lead name : String} (h : Introduces lead name) (shown : Bool)
    (value : GoString) :
    ((given shown name value).map assignment).flatMap ((0x2C : UInt8) :: ·) =
      if shown then ascii lead ++ value else [] := by
  cases shown with
  | false => rfl
  | true => simp [given, assignment, show ascii lead = _ from h]

theorem flatMap_stringOption {lead name : String} (h : Introduces lead name) (value : GoString) :
    ((given (value ≠ []) name value).map assignment).flatMap ((0x2C : UInt8) :: ·) =
      stringOption lead value := by
  rw [flatMap_given h, stringOption]
  by_cases hnil : value = []
  · simp [hnil]
  · simp [hnil]

theorem flatMap_intOption {lead name : String} (h : Introduces lead name) (shown : Bool)
    (value : Int) :
    ((given shown name (formatInt value)).map assignment).flatMap ((0x2C : UInt8) :: ·) =
      intOption lead shown value := by
  rw [flatMap_given h, intOption]

/-- The option string is the options it is made of, with commas between them. -/
theorem toOptions_eq (c : ConnectRequest) :
    c.toOptions = [0x2C].intercalate (c.written.map assignment) := by
  have htransport : Introduces ",transport=" "transport" := by decide
  have htraddr : Introduces ",traddr=" "traddr" := by decide
  have htrsvcid : Introduces ",trsvcid=" "trsvcid" := by decide
  have hhostnqn : Introduces ",hostnqn=" "hostnqn" := by decide
  have hhostaddr : Introduces ",host_traddr=" "host_traddr" := by decide
  have htmo : Introduces ",ctrl_loss_tmo=" "ctrl_loss_tmo" := by decide
  have hqueues : Introduces ",nr_io_queues=" "nr_io_queues" := by decide
  have hhostid : Introduces ",hostid=" "hostid" := by decide
  have hkato : Introduces ",keep_alive_tmo=" "keep_alive_tmo" := by decide
  have hsecret : Introduces ",dhchap_secret=" "dhchap_secret" := by decide
  have hctrl : Introduces ",dhchap_ctrl_secret=" "dhchap_ctrl_secret" := by decide
  have hnqn : assignment ("nqn", c.subsysnqn) = ascii "nqn=" ++ c.subsysnqn := by
    have hname : ascii "nqn=" = ascii "nqn" ++ [0x3D] := by decide
    rw [assignment, hname, List.append_assoc, List.singleton_append]
  rw [written, List.map_cons, intercalate_cons, hnqn]
  simp only [List.map_append, List.flatMap_append, flatMap_stringOption htransport,
    flatMap_stringOption htraddr, flatMap_intOption htrsvcid, flatMap_stringOption hhostnqn,
    flatMap_stringOption hhostaddr, flatMap_intOption htmo, flatMap_intOption hqueues,
    flatMap_stringOption hhostid, flatMap_intOption hkato, flatMap_given hsecret,
    flatMap_given hctrl]
  simp only [toOptions, publicOptions, shownSecrets, secretOptions, List.append_assoc,
    decide_eq_true_eq]

end ConnectRequest

/-- An option string split at its commas, and each part at its first equals sign. -/
def splitOptions (options : GoString) : List (GoString × GoString) :=
  (options.splitOn 0x2C).map fun part =>
    (part.takeWhile (· != 0x3D), (part.dropWhile (· != 0x3D)).drop 1)

namespace ConnectRequest

theorem map_fst_written (c : ConnectRequest) : (c.written.map Prod.fst).Sublist optionNames := by
  have hgiven : ∀ shown name value, ((given shown name value).map Prod.fst).Sublist [name] := by
    intro shown name value
    cases shown with
    | false => exact List.nil_sublist _
    | true => exact List.Sublist.refl _
  simp only [written, List.map_cons, List.map_append]
  apply List.Sublist.cons_cons
  exact ((((((((((hgiven _ _ _).append (hgiven _ _ _)).append (hgiven _ _ _)).append
    (hgiven _ _ _)).append (hgiven _ _ _)).append (hgiven _ _ _)).append (hgiven _ _ _)).append
    (hgiven _ _ _)).append (hgiven _ _ _)).append (hgiven _ _ _)).append (hgiven _ _ _)

theorem name_of_mem_written {c : ConnectRequest} {option : String × GoString}
    (h : option ∈ c.written) : option.1 ∈ optionNames :=
  (map_fst_written c).subset (List.mem_map_of_mem h)

/-- No value that is written has a comma. -/
def CommaFree (c : ConnectRequest) : Prop := ∀ option ∈ c.written, 0x2C ∉ option.2

theorem splitOptions_toOptions {c : ConnectRequest} (h : c.CommaFree) :
    splitOptions c.toOptions = c.written.map fun option => (ascii option.1, option.2) := by
  have hnames : ∀ name ∈ optionNames, 0x2C ∉ ascii name ∧ ∀ b ∈ ascii name, (b != 0x3D) = true := by
    decide +kernel
  have hcomma : ∀ part ∈ c.written.map assignment, 0x2C ∉ part := by
    intro part hpart
    obtain ⟨option, hoption, rfl⟩ := List.mem_map.mp hpart
    have hname := (hnames _ (name_of_mem_written hoption)).1
    simp [assignment, hname, h option hoption]
  rw [splitOptions, toOptions_eq, List.splitOn_intercalate _ hcomma (by simp [written]),
    List.map_map]
  apply List.map_congr_left
  intro option hoption
  have hname := (hnames _ (name_of_mem_written hoption)).2
  simp only [Function.comp_apply, assignment, List.takeWhile_append_of_pos hname,
    List.dropWhile_append_of_pos hname]
  change (ascii option.1 ++ [], option.2) = _
  rw [List.append_nil]

end ConnectRequest

theorem not_mem_of_mem_splitOn {sep : UInt8} {s part : GoString} (h : part ∈ s.splitOn sep) :
    sep ∉ part := by
  induction s generalizing part with
  | nil =>
    rw [List.splitOn_nil, List.mem_singleton] at h
    simp [h]
  | cons b s ih =>
    rw [List.splitOn_cons_eq_if_modifyHead] at h
    split at h
    next =>
      rcases List.mem_cons.mp h with rfl | h
      · simp
      · exact ih h
    next hb =>
      cases hsplit : s.splitOn sep with
      | nil => exact absurd hsplit (List.splitOn_ne_nil sep s)
      | cons first rest =>
        rw [hsplit] at h ih
        rcases List.mem_cons.mp h with rfl | h
        · have hne : sep ≠ b := fun heq => hb (by simp [heq])
          simpa [hne] using ih List.mem_cons_self
        · exact ih (List.mem_cons_of_mem first h)

theorem comma_not_mem_of_mem_splitOptions {options : GoString} {option : GoString × GoString}
    (h : option ∈ splitOptions options) : 0x2C ∉ option.2 := by
  obtain ⟨part, hpart, rfl⟩ := List.mem_map.mp h
  intro hcomma
  exact not_mem_of_mem_splitOn hpart (List.dropWhile_subset _ (List.mem_of_mem_drop hcomma))

end DiscoveryClient
