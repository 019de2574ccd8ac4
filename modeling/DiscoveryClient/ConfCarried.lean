import DiscoveryClient.ConfText

namespace DiscoveryClient

open GoString

/-- What the last value given with a flag reads as, among the tokens of a line. -/
def lastGiven {α : Type} (read : GoString → Option α) (flag : Flag) : List GoString → Option α
  | [] => none
  | [_] => none
  | token :: value :: rest =>
    if Flag.ofField token = some .persistent then lastGiven read flag (value :: rest)
    else (lastGiven read flag rest).or (if Flag.ofField token = some flag then read value else none)

/-- A line with a value for every mandatory field. -/
def GivesEntry (tokens : List GoString) : Prop :=
  lastGiven some .subsysnqn tokens ≠ none ∧ lastGiven some .traddr tokens ≠ none ∧
    lastGiven some .transport tokens ≠ none ∧ lastGiven some .hostnqn tokens ≠ none ∧
    (∃ port, lastGiven (parseInt 32) .trsvcid tokens = some port ∧ port ≠ 0) ∧
    ∀ tmo, lastGiven (parseInt 32) .ctrlLossTMO tokens = some tmo → -1 ≤ tmo

/-- The fields of an entry are within what the commands made from it have room for: 16 bits for the
port, and the 256 bytes of `ConnectData.HOSTNQN`. -/
structure Carriable (e : Entry) : Prop where
  transport : e.transport = ascii "tcp"
  trsvcid : 1 ≤ e.trsvcid ∧ e.trsvcid ≤ 65535
  traddr : e.traddr ≠ []
  subsysnqn : e.subsysnqn ≠ []
  hostnqn : e.hostnqn ≠ [] ∧ e.hostnqn.length ≤ 256
  ctrlLossTMO : ∀ tmo, e.ctrlLossTMO = some tmo → -1 ≤ tmo

/-- The last port of the line is a port number, and its last host NQN fits its field. -/
def FitsFields (tokens : List GoString) : Prop :=
  (∀ port, lastGiven (parseInt 32) .trsvcid tokens = some port → 1 ≤ port ∧ port ≤ 65535) ∧
    ∀ hostnqn, lastGiven some .hostnqn tokens = some hostnqn → hostnqn.length ≤ 256

/-- The entry read so far overwritten by what the tokens give. -/
def overwrite (tokens : List GoString) (d : Entry) : Entry :=
  { d with
    traddr := (lastGiven some .traddr tokens).getD d.traddr
    transport := (lastGiven some .transport tokens).getD d.transport
    trsvcid := (lastGiven (parseInt 32) .trsvcid tokens).getD d.trsvcid
    hostnqn := (lastGiven some .hostnqn tokens).getD d.hostnqn
    hostid := (lastGiven some .hostid tokens).getD d.hostid
    subsysnqn := (lastGiven some .subsysnqn tokens).getD d.subsysnqn
    ctrlLossTMO := (lastGiven (parseInt 32) .ctrlLossTMO tokens).or d.ctrlLossTMO }

section Tokens

variable {α : Type} {read : GoString → Option α} {adjustTraddr : GoString → Bool}
  {flag field : Flag} {token value : GoString} {rest tokens : List GoString} {d e : Entry}

theorem lastGiven_switch (h : Flag.ofField token = some .persistent) :
    lastGiven read flag (token :: rest) = lastGiven read flag rest := by
  cases rest with
  | nil => rfl
  | cons value rest => rw [lastGiven, if_pos h]

theorem lastGiven_value (h : Flag.ofField token = some field) (hnot : field ≠ .persistent) :
    lastGiven read flag (token :: value :: rest) =
      (lastGiven read flag rest).or (if field = flag then read value else none) := by
  rw [lastGiven, h, if_neg (by simpa using hnot)]
  simp only [Option.some.injEq]

theorem overwrite_switch (h : Flag.ofField token = some .persistent) :
    overwrite (token :: rest) d = overwrite rest d := by
  simp only [overwrite, lastGiven_switch h]

theorem overwrite_value (h : Flag.ofField token = some field) (hnot : field ≠ .persistent)
    (hvalue : Token value) (hset : field.set adjustTraddr d value = .ok e) :
    overwrite (token :: value :: rest) d = overwrite rest e := by
  have htrim := hvalue.trimSpace_eq
  simp only [overwrite, lastGiven_value h hnot]
  cases field with
  | traddr | transport =>
    simp only [Flag.set, htrim] at hset
    split at hset
    next =>
      cases Except.ok.inj hset
      simp
    next => simp at hset
  | trsvcid | ctrlLossTMO =>
    simp only [Flag.set, htrim] at hset
    split at hset
    next hread =>
      cases Except.ok.inj hset
      simp [hread]
    next => simp at hset
  | hostnqn | hostid | subsysnqn =>
    simp only [Flag.set, htrim] at hset
    cases Except.ok.inj hset
    simp
  | persistent => exact absurd rfl hnot

/-- The last value given with a flag is the one the entry has. -/
theorem parseTokens_overwrite (htokens : ∀ t ∈ tokens, Token t)
    (h : parseTokens adjustTraddr tokens d = .ok e) :
    e = { overwrite tokens d with persistent := e.persistent } := by
  fun_induction parseTokens adjustTraddr tokens d with
  | case1 d =>
    cases Except.ok.inj h
    rfl
  | case2 => simp at h
  | case3 token rest d hflag ih =>
    obtain ⟨htoken, htokens⟩ := List.forall_mem_cons.mp htokens
    rw [htoken.trimSpace_eq] at hflag
    rw [overwrite_switch hflag]
    exact ih htokens h
  | case4 => simp at h
  | case5 => simp at h
  | case6 token d flag hnot hflag value rest d₁ hset ih =>
    obtain ⟨htoken, htokens⟩ := List.forall_mem_cons.mp htokens
    obtain ⟨hvalue, htokens⟩ := List.forall_mem_cons.mp htokens
    rw [htoken.trimSpace_eq] at hflag
    rw [overwrite_value hflag hnot hvalue hset]
    exact ih htokens h

theorem lastGiven_mem {v : GoString} (h : lastGiven some flag tokens = some v) : v ∈ tokens := by
  fun_induction lastGiven some flag tokens with
  | case1 => simp at h
  | case2 => simp at h
  | case3 token value rest hswitch ih => exact List.mem_cons_of_mem _ (ih h)
  | case4 token value rest hswitch ih =>
    rcases Option.or_eq_some_iff.mp h with h | ⟨-, h⟩
    · exact List.mem_cons_of_mem _ (List.mem_cons_of_mem _ (ih h))
    · split at h
      next =>
        cases Option.some.inj h
        simp
      next => simp at h

/-- A value that is given is a token, and so not empty. -/
theorem getD_lastGiven_ne_nil (htokens : ∀ t ∈ tokens, Token t) :
    (lastGiven some flag tokens).getD [] ≠ [] ↔ lastGiven some flag tokens ≠ none := by
  cases h : lastGiven some flag tokens with
  | none => simp
  | some v =>
    have hne : v ≠ [] := (htokens v (lastGiven_mem h)).1.1
    simp [hne]

theorem verified_iff_givesEntry (htokens : ∀ t ∈ tokens, Token t)
    (h : parseTokens adjustTraddr tokens {} = .ok d) :
    d.asUser.Verified ↔ GivesEntry tokens := by
  have hd := parseTokens_overwrite htokens h
  have hport : (lastGiven (parseInt 32) .trsvcid tokens).getD 0 ≠ 0 ↔
      ∃ port, lastGiven (parseInt 32) .trsvcid tokens = some port ∧ port ≠ 0 := by
    cases lastGiven (parseInt 32) .trsvcid tokens <;> simp
  have htmo : (lastGiven (parseInt 32) .ctrlLossTMO tokens).or none =
      lastGiven (parseInt 32) .ctrlLossTMO tokens := Option.or_none
  rw [hd]
  simp only [Entry.Verified, Entry.asUser, overwrite, getD_lastGiven_ne_nil htokens, hport, htmo,
    GivesEntry]
  tauto

theorem fitsFields_iff (htokens : ∀ t ∈ tokens, Token t)
    (h : parseTokens adjustTraddr tokens {} = .ok d) (hgives : GivesEntry tokens) :
    FitsFields tokens ↔
      (1 ≤ d.trsvcid ∧ d.trsvcid ≤ 65535) ∧ d.hostnqn.length ≤ 256 := by
  have hd := parseTokens_overwrite htokens h
  obtain ⟨-, -, -, hhost, ⟨port, hport, -⟩, -⟩ := hgives
  obtain ⟨hostnqn, hhost⟩ := Option.ne_none_iff_exists'.mp hhost
  rw [hd]
  simp [FitsFields, overwrite, hport, hhost]

end Tokens

section Lines

variable {adjustTraddr : GoString → Bool} {e : Entry} {line : GoString} {lines : List GoString}
  {entries : List Entry}

theorem parseLine_some_iff :
    parseLine adjustTraddr (dropCR line) = .ok (some e) ↔
      ∃ d, parseTokens adjustTraddr (lineTokens line) {} = .ok d ∧ d.asUser.Verified ∧
        e = d.asUser := by
  rw [parseLine_eq]
  cases hread : parseTokens adjustTraddr (lineTokens line) {} with
  | error f => simp
  | ok d =>
    have hverify : ({ d with entrySource := .user } : Entry).verify = .ok () ↔ d.asUser.Verified :=
      Entry.verify_ok_iff
    simp only [Except.ok.injEq, exists_eq_left', ← hverify]
    cases ({ d with entrySource := .user } : Entry).verify with
    | error msg => simp
    | ok u => simp [Entry.asUser, eq_comm]

theorem parseLines_mem_iff (h : parseLines adjustTraddr lines = .ok entries) :
    e ∈ entries ↔ ∃ line ∈ lines, parseLine adjustTraddr (dropCR line) = .ok (some e) := by
  induction lines generalizing entries with
  | nil =>
    cases Except.ok.inj h
    simp
  | cons line lines ih =>
    obtain ⟨-, entry, rest, hline, hrest, rfl⟩ := parseLines_cons_ok h
    rw [List.mem_append, Option.mem_toList, ih hrest, List.exists_mem_cons_iff, hline]
    simp

/-- The entries of a file are the ones its lines give, each line for itself. -/
theorem parse_mem_iff {bytes : GoString} {readError : Bool}
    (h : parse adjustTraddr (.content bytes readError) = .ok entries) :
    e ∈ entries ↔
      ∃ line ∈ scanLines bytes, parseLine adjustTraddr (dropCR line) = .ok (some e) := by
  simp only [parse] at h
  split at h
  · simp at h
  next parsed hlines =>
    split at h
    · simp at h
    · cases Except.ok.inj h
      rw [mem_removeDupEntries, parseLines_mem_iff hlines]

theorem parseLines_ok (h : parseLines adjustTraddr lines = .ok entries) :
    ∀ line ∈ lines, ∃ entry, parseLine adjustTraddr (dropCR line) = .ok entry := by
  induction lines generalizing entries with
  | nil => simp
  | cons line lines ih =>
    obtain ⟨-, entry, rest, hline, hrest, -⟩ := parseLines_cons_ok h
    exact List.forall_mem_cons.mpr ⟨⟨entry, hline⟩, ih hrest⟩

theorem parse_ok_lines {bytes : GoString} {readError : Bool}
    (h : parse adjustTraddr (.content bytes readError) = .ok entries) :
    ∀ line ∈ scanLines bytes, ∃ d, parseTokens adjustTraddr (lineTokens line) {} = .ok d := by
  simp only [parse] at h
  split at h
  · simp at h
  next parsed hlines =>
    intro line hline
    exact parseTokens_ok_iff.mpr (parseLine_ok_iff.mp (parseLines_ok hlines line hline))

end Lines

theorem carriable_iff {e : Entry} (h : Parsed e) :
    Carriable e ↔ (1 ≤ e.trsvcid ∧ e.trsvcid ≤ 65535) ∧ e.hostnqn.length ≤ 256 := by
  obtain ⟨hsubsys, htraddr, -, -, hhost, htmo⟩ := h.verified
  constructor
  · intro hc
    exact ⟨hc.trsvcid, hc.hostnqn.2⟩
  · rintro ⟨hport, hlen⟩
    exact ⟨h.transport, hport, htraddr, hsubsys, ⟨hhost, hlen⟩, htmo⟩

/-- All entries of a file can be carried exactly when every line that gives one ends up with a port
number and a host NQN that fit their fields. -/
theorem parse_carriable_iff (adjustTraddr : GoString → Bool) (bytes : GoString) (readError : Bool)
    (entries : List Entry) (h : parse adjustTraddr (.content bytes readError) = .ok entries) :
    (∀ e ∈ entries, Carriable e) ↔
      ∀ line ∈ scanLines bytes, GivesEntry (lineTokens line) → FitsFields (lineTokens line) := by
  constructor
  · intro hall line hline hgives
    have htokens : ∀ t ∈ lineTokens line, Token t := fun t => token_of_mem_lineTokens
    obtain ⟨d, hread⟩ := parse_ok_lines h line hline
    have hverified := (verified_iff_givesEntry htokens hread).mpr hgives
    have hmem : d.asUser ∈ entries :=
      (parse_mem_iff h).mpr ⟨line, hline, parseLine_some_iff.mpr ⟨d, hread, hverified, rfl⟩⟩
    have hcarried := (carriable_iff (parse_parsed h _ hmem)).mp (hall _ hmem)
    exact (fitsFields_iff htokens hread hgives).mpr hcarried
  · intro hall e he
    obtain ⟨line, hline, hparse⟩ := (parse_mem_iff h).mp he
    have htokens : ∀ t ∈ lineTokens line, Token t := fun t => token_of_mem_lineTokens
    obtain ⟨d, hread, hverified, rfl⟩ := parseLine_some_iff.mp hparse
    have hgives := (verified_iff_givesEntry htokens hread).mp hverified
    have hfits := (fitsFields_iff htokens hread hgives).mp (hall line hline hgives)
    exact (carriable_iff (parse_parsed h _ he)).mpr hfits

theorem parse_carriable_iff_sample :
    ∃ entries, parse (fun _ => true) sampleFile = .ok entries ∧ entries ≠ [] ∧
      ∀ e ∈ entries, Carriable e := by
  have hlines : scanLines (ascii "-t tcp -a 10.0.0.2 -s 8009 -q nqn.h -n nqn.c -l 60") =
      [ascii "-t tcp -a 10.0.0.2 -s 8009 -q nqn.h -n nqn.c -l 60"] := by decide +kernel
  refine ⟨[fileEntry], parse_sampleFile, by simp,
    (parse_carriable_iff _ _ _ _ parse_sampleFile).mpr ?_⟩
  rw [hlines]
  intro line hline _
  cases List.mem_singleton.mp hline
  refine ⟨?_, ?_⟩
  · intro port hport
    have h8009 : port = 8009 := Option.some.inj (hport.symm.trans (by decide +kernel))
    subst h8009
    decide
  · intro hostnqn hhost
    have hnqn : hostnqn = ascii "nqn.h" := Option.some.inj (hhost.symm.trans (by decide +kernel))
    subst hnqn
    decide

/-- A port of more than 16 bits. -/
theorem parse_port_out_of_range :
    ¬∀ (adjustTraddr : GoString → Bool) (file : UserFile) (entries : List Entry),
      parse adjustTraddr file = .ok entries → ∀ e ∈ entries, Carriable e := by
  intro h
  let file : UserFile := .content (ascii "-t tcp -a 10.0.0.2 -s 70000 -q nqn.h -n nqn.c") false
  have hparse : ∃ e, parse (fun _ => true) file = .ok [e] ∧ e.trsvcid = 70000 := by
    refine ⟨⟨ascii "tcp", 70000, ascii "10.0.0.2", ascii "nqn.h", [], ascii "nqn.c", false, [],
      .user, none, []⟩, ?_, rfl⟩
    decide +kernel
  obtain ⟨e, hparse, hport⟩ := hparse
  have hcarried := h _ file [e] hparse e List.mem_cons_self
  have hbound := hcarried.trsvcid.2
  rw [hport] at hbound
  exact absurd hbound (by decide)

end DiscoveryClient
