import DiscoveryClient.ConfCarried

namespace DiscoveryClient

open GoString Commonstructs

/-- `net.AddrError`. -/
structure AddrError where
  err : String
  addr : GoString
deriving DecidableEq, Repr

def lastIndexByte (s : GoString) (c : UInt8) : Option Nat :=
  (s.reverse.findIdx? (· == c)).map fun n => s.length - 1 - n

/-- The end of `net.SplitHostPort`: no bracket from `j` and `k` on, and what follows the colon. -/
def checkBrackets (hostport host : GoString) (i j k : Nat) :
    Except AddrError (GoString × GoString) :=
  if 0x5B ∈ hostport.drop j then .error ⟨"unexpected '[' in address", hostport⟩
  else if 0x5D ∈ hostport.drop k then .error ⟨"unexpected ']' in address", hostport⟩
  else .ok (host, hostport.drop (i + 1))

/-- `net.SplitHostPort`. -/
def splitHostPort (hostport : GoString) : Except AddrError (GoString × GoString) :=
  -- The port starts behind the last colon.
  match lastIndexByte hostport 0x3A with
  | none => .error ⟨"missing port in address", hostport⟩
  | some i =>
    if hostport.head? = some 0x5B then
      match hostport.findIdx? (· == 0x5D) with
      | none => .error ⟨"missing ']' in address", hostport⟩
      | some stop =>
        if stop + 1 = hostport.length then .error ⟨"missing port in address", hostport⟩
        else if stop + 1 = i then
          checkBrackets hostport ((hostport.take stop).drop 1) i 1 (stop + 1)
        else if hostport.getD (stop + 1) 0 = 0x3A then
          .error ⟨"too many colons in address", hostport⟩
        else .error ⟨"missing port in address", hostport⟩
    else if 0x3A ∈ hostport.take i then .error ⟨"too many colons in address", hostport⟩
    else checkBrackets hostport (hostport.take i) i 0 0

/-- `strconv.ParseUint` in base 10; `none` is either of its errors. -/
def parseUint (bits : Nat) (s : GoString) : Option Nat :=
  (parseDigits s).bind fun n => if n < 2 ^ bits then some n else none

inductive CreateEntriesError
  | unset (msg : String)
  | splitHostPort (err : AddrError)
  | adjustTraddr
  | parseUint
deriving DecidableEq, Repr

/-- The loop of `CreateEntries` over the addresses. -/
def createEntriesLoop (adjustTraddr : GoString → Bool) (hostnqn nqn transport hostid : GoString) :
    List GoString → Except CreateEntriesError (List Commonstructs.Entry)
  | [] => .ok []
  | address :: addresses =>
    match splitHostPort address with
    | .error err => .error (.splitHostPort err)
    | .ok (host, port) =>
      if adjustTraddr host then
        match parseUint 16 port with
        | none => .error .parseUint
        | some n =>
          match createEntriesLoop adjustTraddr hostnqn nqn transport hostid addresses with
          | .error err => .error err
          | .ok entries => .ok (⟨transport, host, n, hostnqn, nqn, hostid⟩ :: entries)
      else .error .adjustTraddr

def createEntries (adjustTraddr : GoString → Bool) (addresses : List GoString)
    (hostnqn nqn transport hostid : GoString) :
    Except CreateEntriesError (List Commonstructs.Entry) :=
  if hostnqn = [] then .error (.unset "hostnqn must be set")
  else if transport = [] then .error (.unset "transport must be set")
  else if nqn = [] then .error (.unset "subsys-nqn must be set")
  else if hostid = [] then .error (.unset "hostid must be set")
  else createEntriesLoop adjustTraddr hostnqn nqn transport hostid addresses

/-- The entry has the fields of the created one. -/
def SameFields (created : Commonstructs.Entry) (e : Entry) : Prop :=
  e.transport = created.transport ∧ e.traddr = created.traddr ∧ e.trsvcid = created.trsvcid ∧
    e.hostnqn = created.hostnqn ∧ e.subsysnqn = created.nqn ∧ e.hostid = created.hostID

/-- The file written for the created entries is parsed into them and nothing else. -/
def Loadable (adjustTraddr : GoString → Bool) (created : List Commonstructs.Entry) : Prop :=
  ∃ parsed, parse adjustTraddr (.content (entriesToString created) false) = .ok parsed ∧
    (∀ entry ∈ created, ∃ e ∈ parsed, SameFields entry e) ∧
    ∀ e ∈ parsed, ∃ entry ∈ created, SameFields entry e

/-- What the parser asks of an entry that the generator does not: the only transport it knows, a
port, and values without a separator or a `#` on a line that is not too long. -/
structure Readable (entry : Commonstructs.Entry) : Prop where
  transport : entry.transport = ascii "tcp"
  traddr : Token entry.traddr
  trsvcid : entry.trsvcid ≠ 0
  hostnqn : Token entry.hostnqn
  nqn : Token entry.nqn
  hostID : Token entry.hostID
  line : entry.line.length < maxScanTokenSize

section Created

variable {adjustTraddr : GoString → Bool} {hostnqn nqn transport hostid : GoString}
  {addresses : List GoString} {created : List Commonstructs.Entry} {entry : Commonstructs.Entry}

theorem createEntriesLoop_mem
    (h : createEntriesLoop adjustTraddr hostnqn nqn transport hostid addresses = .ok created) :
    entry ∈ created ↔ ∃ address ∈ addresses, ∃ host port n,
      splitHostPort address = .ok (host, port) ∧ parseUint 16 port = some n ∧
        entry = ⟨transport, host, n, hostnqn, nqn, hostid⟩ := by
  induction addresses generalizing created with
  | nil =>
    cases Except.ok.inj h
    simp
  | cons address addresses ih =>
    simp only [createEntriesLoop] at h
    split at h
    · simp at h
    next host port hsplit =>
      split at h
      next =>
        split at h
        · simp at h
        next n hport =>
          split at h
          · simp at h
          next rest hrest =>
            cases Except.ok.inj h
            rw [List.mem_cons, ih hrest, List.exists_mem_cons_iff, hsplit]
            constructor
            · rintro (rfl | hmem)
              · exact Or.inl ⟨host, port, n, rfl, hport, rfl⟩
              · exact Or.inr hmem
            · rintro (⟨host', port', n', heq, hport', rfl⟩ | hmem)
              · cases Except.ok.inj heq
                rw [hport] at hport'
                cases Option.some.inj hport'
                exact Or.inl rfl
              · exact Or.inr hmem
      next => simp at h

theorem createEntriesLoop_adjusted
    (h : createEntriesLoop adjustTraddr hostnqn nqn transport hostid addresses = .ok created) :
    ∀ entry ∈ created, adjustTraddr entry.traddr = true := by
  induction addresses generalizing created with
  | nil =>
    cases Except.ok.inj h
    simp
  | cons address addresses ih =>
    simp only [createEntriesLoop] at h
    split at h
    · simp at h
    next host port hsplit =>
      split at h
      next hadjust =>
        split at h
        · simp at h
        next n hport =>
          split at h
          · simp at h
          next rest hrest =>
            cases Except.ok.inj h
            exact List.forall_mem_cons.mpr ⟨hadjust, ih hrest⟩
      next => simp at h

/-- What is checked before the loop. -/
theorem createEntries_ok
    (h : createEntries adjustTraddr addresses hostnqn nqn transport hostid = .ok created) :
    hostid ≠ [] ∧
      createEntriesLoop adjustTraddr hostnqn nqn transport hostid addresses = .ok created := by
  unfold createEntries at h
  split at h
  · simp at h
  split at h
  · simp at h
  split at h
  · simp at h
  split at h
  · simp at h
  next hid => exact ⟨hid, h⟩

theorem parseUint_lt {bits n : Nat} {s : GoString} (h : parseUint bits s = some n) :
    n < 2 ^ bits := by
  obtain ⟨m, -, h⟩ := Option.bind_eq_some_iff.mp h
  split at h
  next hlt =>
    cases Option.some.inj h
    exact hlt
  next => simp at h

/-- What holds of every entry `CreateEntries` returns. -/
structure Created (adjustTraddr : GoString → Bool) (entry : Commonstructs.Entry) : Prop where
  adjusted : adjustTraddr entry.traddr = true
  hostID : entry.hostID ≠ []
  trsvcid : 0 ≤ entry.trsvcid ∧ entry.trsvcid ≤ 65535

theorem createEntries_created
    (h : createEntries adjustTraddr addresses hostnqn nqn transport hostid = .ok created) :
    ∀ entry ∈ created, Created adjustTraddr entry := by
  obtain ⟨hid, hloop⟩ := createEntries_ok h
  intro entry hentry
  have hadjusted := createEntriesLoop_adjusted hloop entry hentry
  obtain ⟨address, -, host, port, n, -, hport, rfl⟩ := (createEntriesLoop_mem hloop).mp hentry
  have hlt := parseUint_lt hport
  exact ⟨hadjusted, hid, by simp only; omega⟩

theorem Readable.renderable (hread : Readable entry) (hcreated : Created adjustTraddr entry) :
    Renderable adjustTraddr entry.toConfig where
  transport := hread.transport
  traddr := hread.traddr
  adjusted := hcreated.adjusted
  trsvcid := by
    have hport := hcreated.trsvcid
    have hzero := hread.trsvcid
    change 1 ≤ entry.trsvcid ∧ entry.trsvcid ≤ 65535
    omega
  hostnqn := hread.hostnqn
  subsysnqn := hread.nqn
  hostid := Or.inr hread.hostID
  ctrlLossTMO := by simp [Entry.toConfig]
  hostaddr := rfl
  effectiveHostid := rfl

theorem loadable_of_readable (hcreated : ∀ entry ∈ created, Created adjustTraddr entry)
    (hread : ∀ entry ∈ created, Readable entry) : Loadable adjustTraddr created := by
  have hrenderable : ∀ entry ∈ created, Renderable adjustTraddr entry.toConfig :=
    fun entry hentry => (hread entry hentry).renderable (hcreated entry hentry)
  have hrenders := renders_entriesToString hrenderable
    fun entry hentry => ⟨(hcreated entry hentry).hostID, (hread entry hentry).line⟩
  have hconfig : ∀ e ∈ created.map Entry.toConfig, Renderable adjustTraddr e := by
    intro e he
    obtain ⟨entry, hentry, rfl⟩ := List.mem_map.mp he
    exact hrenderable entry hentry
  obtain ⟨parsed, hparse, hmem⟩ := parsesTo_of_renders hconfig hrenders
  have hsame : ∀ entry : Commonstructs.Entry, SameFields entry entry.toConfig.asUser :=
    fun entry => ⟨rfl, rfl, rfl, rfl, rfl, rfl⟩
  refine ⟨parsed, hparse, ?_, ?_⟩
  · intro entry hentry
    exact ⟨_, (hmem _).mpr (List.mem_map_of_mem (List.mem_map_of_mem hentry)), hsame entry⟩
  · intro e he
    obtain ⟨config, hconfig, rfl⟩ := List.mem_map.mp ((hmem e).mp he)
    obtain ⟨entry, hentry, rfl⟩ := List.mem_map.mp hconfig
    exact ⟨entry, hentry, hsame entry⟩

end Created

section Parsed

variable {adjustTraddr : GoString → Bool} {bytes : GoString} {parsed : List Entry} {e : Entry}
  {created : List Commonstructs.Entry}

theorem lastGiven_token {flag : Flag} {tokens : List GoString} (htokens : ∀ t ∈ tokens, Token t) :
    (lastGiven some flag tokens).getD [] = [] ∨ Token ((lastGiven some flag tokens).getD []) := by
  cases h : lastGiven some flag tokens with
  | none => exact Or.inl rfl
  | some v => exact Or.inr (htokens v (lastGiven_mem h))

/-- The strings of the entry are what the tokens give last. -/
theorem parseTokens_strings {tokens : List GoString} {d : Entry}
    (htokens : ∀ t ∈ tokens, Token t) (h : parseTokens adjustTraddr tokens {} = .ok d) :
    d.traddr = (lastGiven some .traddr tokens).getD [] ∧
      d.hostnqn = (lastGiven some .hostnqn tokens).getD [] ∧
      d.subsysnqn = (lastGiven some .subsysnqn tokens).getD [] ∧
      d.hostid = (lastGiven some .hostid tokens).getD [] := by
  have hd := parseTokens_overwrite htokens h
  generalize d.persistent = persistent at hd
  subst hd
  exact ⟨rfl, rfl, rfl, rfl⟩

/-- The strings of a parsed entry are tokens of its line. -/
theorem parse_tokens (h : parse adjustTraddr (.content bytes false) = .ok parsed)
    (he : e ∈ parsed) :
    Token e.traddr ∧ Token e.hostnqn ∧ Token e.subsysnqn ∧ (e.hostid = [] ∨ Token e.hostid) := by
  obtain ⟨line, -, hparse⟩ := (parse_mem_iff h).mp he
  have htokens : ∀ t ∈ lineTokens line, Token t := fun t => token_of_mem_lineTokens
  obtain ⟨d, hread, ⟨hsubsys, htraddr, -, -, hhost, -⟩, rfl⟩ := parseLine_some_iff.mp hparse
  obtain ⟨htraddr', hhost', hsubsys', hid'⟩ := parseTokens_strings htokens hread
  change d.subsysnqn ≠ [] at hsubsys
  change d.traddr ≠ [] at htraddr
  change d.hostnqn ≠ [] at hhost
  change Token d.traddr ∧ Token d.hostnqn ∧ Token d.subsysnqn ∧ (d.hostid = [] ∨ Token d.hostid)
  rw [htraddr'] at htraddr ⊢
  rw [hhost'] at hhost ⊢
  rw [hsubsys'] at hsubsys ⊢
  rw [hid']
  exact ⟨(lastGiven_token htokens).resolve_left htraddr,
    (lastGiven_token htokens).resolve_left hhost, (lastGiven_token htokens).resolve_left hsubsys,
    lastGiven_token htokens⟩

theorem parseLines_short {lines : List GoString} {entries : List Entry}
    (h : parseLines adjustTraddr lines = .ok entries) :
    ∀ line ∈ lines, line.length < maxScanTokenSize := by
  induction lines generalizing entries with
  | nil => simp
  | cons line lines ih =>
    obtain ⟨hshort, entry, rest, -, hrest, -⟩ := parseLines_cons_ok h
    exact List.forall_mem_cons.mpr ⟨hshort, ih hrest⟩

/-- Entries that all come out of their file again are readable. -/
theorem readable_of_carried (hcreated : ∀ entry ∈ created, Created adjustTraddr entry)
    (hparse : parse adjustTraddr (.content (entriesToString created) false) = .ok parsed)
    (hall : ∀ entry ∈ created, ∃ e ∈ parsed, SameFields entry e) :
    ∀ entry ∈ created, Readable entry := by
  have hfields : ∀ entry ∈ created, entry.transport = ascii "tcp" ∧ entry.trsvcid ≠ 0 ∧
      Token entry.traddr ∧ Token entry.hostnqn ∧ Token entry.nqn ∧ Token entry.hostID := by
    intro entry hentry
    obtain ⟨e, he, htransport, htraddr, hport, hhost, hnqn, hid⟩ := hall entry hentry
    have hparsed := parse_parsed hparse e he
    obtain ⟨htraddr', hhost', hnqn', hid'⟩ := parse_tokens hparse he
    rw [← htransport, ← hport, ← htraddr, ← hhost, ← hnqn, ← hid]
    refine ⟨hparsed.transport, hparsed.verified.2.2.1, htraddr', hhost', hnqn', ?_⟩
    exact hid'.resolve_left (hid ▸ (hcreated entry hentry).hostID)
  -- No field has a newline, so the lines of the file are the lines of the entries.
  have hlines : ∀ line ∈ lines created, 0x0A ∉ line := by
    intro line hline
    rcases List.mem_append.mp hline with hline | hline
    · obtain ⟨entry, hentry, hline⟩ := List.mem_flatMap.mp hline
      obtain ⟨htcp, -, htraddr, hhost, hnqn, hid⟩ := hfields entry hentry
      have hnot := Entry.newline_not_mem_line htcp htraddr hhost hnqn hid
      simp only [List.mem_cons, List.not_mem_nil, or_false] at hline
      rcases hline with rfl | rfl
      · exact hnot
      · simp
    · rw [List.mem_singleton] at hline
      simp [hline]
  have hshort : ∀ line ∈ lines created, line.length < maxScanTokenSize := by
    rw [entriesToString_eq] at hparse
    simp only [parse, parseLines_file hlines] at hparse
    split at hparse
    · simp at hparse
    next entries hread => exact parseLines_short hread
  intro entry hentry
  obtain ⟨htcp, hport, htraddr, hhost, hnqn, hid⟩ := hfields entry hentry
  have hmem : entry.line ∈ lines created :=
    List.mem_append_left _ (List.mem_flatMap.mpr ⟨entry, hentry, List.mem_cons_self⟩)
  exact ⟨htcp, htraddr, hport, hhost, hnqn, hid, hshort _ hmem⟩

theorem readable_of_loadable (hcreated : ∀ entry ∈ created, Created adjustTraddr entry)
    (h : Loadable adjustTraddr created) : ∀ entry ∈ created, Readable entry := by
  obtain ⟨parsed, hparse, hall, -⟩ := h
  exact readable_of_carried hcreated hparse hall

end Parsed

/-- The file of `CreateEntries` is loaded as it was created exactly when the values it is given
are ones the parser can read. -/
theorem createEntries_loadable_iff (adjustTraddr : GoString → Bool) (addresses : List GoString)
    (hostnqn nqn transport hostid : GoString) (created : List Commonstructs.Entry)
    (h : createEntries adjustTraddr addresses hostnqn nqn transport hostid = .ok created) :
    Loadable adjustTraddr created ↔
      ∀ address ∈ addresses, ∀ host port n, splitHostPort address = .ok (host, port) →
        parseUint 16 port = some n → Readable ⟨transport, host, n, hostnqn, nqn, hostid⟩ := by
  have hcreated := createEntries_created h
  have hmem := fun entry => @createEntriesLoop_mem _ _ _ _ _ _ _ entry (createEntries_ok h).2
  constructor
  · intro hload address haddress host port n hsplit hport
    exact readable_of_loadable hcreated hload _
      ((hmem _).mpr ⟨address, haddress, host, port, n, hsplit, hport, rfl⟩)
  · intro hread
    refine loadable_of_readable hcreated ?_
    intro entry hentry
    obtain ⟨address, haddress, host, port, n, hsplit, hport, rfl⟩ := (hmem entry).mp hentry
    exact hread address haddress host port n hsplit hport

/-- Two addresses on the command line, the second an IPv6 one in brackets. -/
def sampleAddresses : List GoString := [ascii "10.0.0.2:8009", ascii "[fe80::1]:8009"]

/-- The entries made of them. -/
def sampleCreated : List Commonstructs.Entry :=
  [⟨ascii "tcp", ascii "10.0.0.2", 8009, ascii "nqn.h", ascii "nqn.c", ascii "7d5d"⟩,
    ⟨ascii "tcp", ascii "fe80::1", 8009, ascii "nqn.h", ascii "nqn.c", ascii "7d5d"⟩]

theorem createEntries_sample : createEntries (fun _ => true) sampleAddresses (ascii "nqn.h")
    (ascii "nqn.c") (ascii "tcp") (ascii "7d5d") = .ok sampleCreated := by
  decide +kernel

theorem sampleCreated_readable : ∀ entry ∈ sampleCreated, Readable entry := by
  have hfields : ∀ entry ∈ sampleCreated, entry.transport = ascii "tcp" ∧ Token entry.traddr ∧
      entry.trsvcid ≠ 0 ∧ Token entry.hostnqn ∧ Token entry.nqn ∧ Token entry.hostID ∧
      entry.line.length < maxScanTokenSize := by
    decide +kernel
  intro entry hentry
  obtain ⟨htcp, htraddr, hport, hhost, hnqn, hid, hlen⟩ := hfields entry hentry
  exact ⟨htcp, htraddr, hport, hhost, hnqn, hid, hlen⟩

theorem createEntries_loadable_iff_sample :
    createEntries (fun _ => true) sampleAddresses (ascii "nqn.h") (ascii "nqn.c") (ascii "tcp")
      (ascii "7d5d") = .ok sampleCreated ∧ Loadable (fun _ => true) sampleCreated := by
  refine ⟨createEntries_sample, (createEntries_loadable_iff (fun _ => true) sampleAddresses _ _ _ _
    _ createEntries_sample).mpr ?_⟩
  intro address haddress host port n hsplit hport
  exact sampleCreated_readable _ ((createEntriesLoop_mem (createEntries_ok createEntries_sample).2).mpr
    ⟨address, haddress, host, port, n, hsplit, hport, rfl⟩)

/-- Any transport is taken for the file, and the parser knows only one. -/
theorem created_not_loadable :
    ¬∀ (adjustTraddr : GoString → Bool) (addresses : List GoString)
      (hostnqn nqn transport hostid : GoString) (created : List Commonstructs.Entry),
      createEntries adjustTraddr addresses hostnqn nqn transport hostid = .ok created →
        Loadable adjustTraddr created := by
  intro h
  let entry : Commonstructs.Entry :=
    ⟨ascii "rdma", ascii "10.0.0.2", 8009, ascii "nqn.h", ascii "nqn.c", ascii "7d5d"⟩
  have hcreated : createEntries (fun _ => true) [ascii "10.0.0.2:8009"] (ascii "nqn.h")
      (ascii "nqn.c") (ascii "rdma") (ascii "7d5d") = .ok [entry] := by decide +kernel
  obtain ⟨parsed, hparse, -⟩ := h _ _ _ _ _ _ _ hcreated
  have herror : parse (fun _ => true) (.content (entriesToString [entry]) false) =
      .error (.parser ⟨"bad transport", ascii "rdma is not a valid transport"⟩) := by
    decide +kernel
  rw [herror] at hparse
  cases hparse

end DiscoveryClient
