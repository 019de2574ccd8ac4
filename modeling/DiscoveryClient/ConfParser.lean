import DiscoveryClient.Entry

namespace DiscoveryClient

open GoString

/-- `clientconfig.ParserError`, whose text is `msg`. -/
structure ParserError where
  msg : String
  details : GoString
deriving DecidableEq, Repr

/-- How `parse` ends without a list of entries. `indexOutOfRange` is the runtime panic of reading
the value of a flag that is the last token of its line. -/
inductive ParseFailure
  | openFile
  | parser (err : ParserError)
  | scanner
  | indexOutOfRange
deriving DecidableEq, Repr

/-- A file of the user directory as one call of `parse` finds it. -/
inductive UserFile
  | unopenable
  | content (bytes : GoString) (readError : Bool)

inductive Flag
  | traddr
  | transport
  | trsvcid
  | hostnqn
  | hostid
  | subsysnqn
  | persistent
  | ctrlLossTMO
deriving DecidableEq, Repr

/-- The cases of the switch over a line's tokens. -/
def Flag.ofField (field : GoString) : Option Flag :=
  if field = ascii "-a" ∨ field = ascii "--traddr" then some .traddr
  else if field = ascii "-t" ∨ field = ascii "--transport" then some .transport
  else if field = ascii "-s" ∨ field = ascii "--trsvcid" then some .trsvcid
  else if field = ascii "-q" ∨ field = ascii "--hostnqn" then some .hostnqn
  else if field = ascii "-I" ∨ field = ascii "--hostid" then some .hostid
  else if field = ascii "-n" ∨ field = ascii "--subsysnqn" then some .subsysnqn
  else if field = ascii "-p" ∨ field = ascii "--persistent" then some .persistent
  else if field = ascii "-l" ∨ field = ascii "--ctrl-loss-tmo" then some .ctrlLossTMO
  else none

/-- What a flag does with the token after it. `adjustTraddr` tells whether `nvme.AdjustTraddr`,
which may ask a name server, returns no error. -/
def Flag.set (adjustTraddr : GoString → Bool) (e : Entry) (token : GoString) :
    Flag → Except ParserError Entry
  | .traddr =>
    if adjustTraddr (trimSpace token) then .ok { e with traddr := trimSpace token }
    else .error ⟨"bad address", token ++ ascii " is not a valid hostname or IP address"⟩
  | .transport =>
    if trimSpace token = ascii "tcp" then .ok { e with transport := trimSpace token }
    else .error ⟨"bad transport", token ++ ascii " is not a valid transport"⟩
  | .trsvcid =>
    match parseInt 32 (trimSpace token) with
    | some port => .ok { e with trsvcid := port }
    | none => .error ⟨"bad port", token ++ ascii " is not a valid int"⟩
  | .hostnqn => .ok { e with hostnqn := trimSpace token }
  | .hostid => .ok { e with hostid := trimSpace token }
  | .subsysnqn => .ok { e with subsysnqn := trimSpace token }
  | .persistent => .ok e
  | .ctrlLossTMO =>
    match parseInt 32 (trimSpace token) with
    | some tmo => .ok { e with ctrlLossTMO := some tmo }
    | none => .error ⟨"bad controller loss timeout value", token ++ ascii " is not a valid int"⟩

/-- The loop over the tokens of a line. Every flag but `--persistent` takes the next token. -/
def parseTokens (adjustTraddr : GoString → Bool) : List GoString → Entry → Except ParseFailure Entry
  | [], e => .ok e
  | token :: rest, e =>
    match Flag.ofField (trimSpace token) with
    | none =>
      .error (.parser ⟨"unknown flag", trimSpace token ++ ascii " is not a valid flag"⟩)
    | some .persistent => parseTokens adjustTraddr rest { e with persistent := true }
    | some flag =>
      match rest with
      | [] => .error .indexOutOfRange
      | value :: rest =>
        match flag.set adjustTraddr e value with
        | .error err => .error (.parser err)
        | .ok e => parseTokens adjustTraddr rest e

def trimStringFromHashtag (s : GoString) : GoString := s.takeWhile (· ≠ 0x23)

def splitSpacesAndEqualSign (c : Nat) : Bool := isSpace c || c == 0x3D

/-- One line of the file; `none` for a line that is blank or whose entry does not verify. -/
def parseLine (adjustTraddr : GoString → Bool) (text : GoString) :
    Except ParseFailure (Option Entry) :=
  let line := trimStringFromHashtag (trimSpace text)
  if line = [] then .ok none
  else
    match parseTokens adjustTraddr (fieldsFunc splitSpacesAndEqualSign line) {} with
    | .error f => .error f
    | .ok e =>
      let e := { e with entrySource := .user }
      match e.verify with
      | .ok () => .ok (some e)
      | .error _ => .ok none

/-- The lines of `bufio.ScanLines`, before a carriage return is dropped: what follows the last
newline is a line only when it is not empty. -/
def scanLines (bytes : GoString) : List GoString :=
  let parts := bytes.splitOnP (· == 0x0A)
  if parts.getLast? = some [] then parts.dropLast else parts

def dropCR (line : GoString) : GoString :=
  if line.getLast? = some 0x0D then line.dropLast else line

/-- `bufio.MaxScanTokenSize`: a line has to fit a buffer of that size with room for its end. -/
def maxScanTokenSize : Nat := 65536

def parseLines (adjustTraddr : GoString → Bool) : List GoString → Except ParseFailure (List Entry)
  | [] => .ok []
  | line :: lines =>
    if maxScanTokenSize ≤ line.length then .error .scanner
    else
      match parseLine adjustTraddr (dropCR line) with
      | .error f => .error f
      | .ok entry =>
        match parseLines adjustTraddr lines with
        | .error f => .error f
        | .ok entries => .ok (entry.toList ++ entries)

/-- `entriesSet[*e] = true`. The map is keyed by the struct, so a `CtrlLossTMO` is compared as a
pointer and two entries that have one are never equal. -/
def insertEntry (entriesSet : List Entry) (e : Entry) : List Entry :=
  if e.ctrlLossTMO = none ∧ e ∈ entriesSet then entriesSet else entriesSet ++ [e]

def removeDupEntries (entries : List Entry) : List Entry := entries.foldl insertEntry []

/-- `parse`, up to the order in which `removeDupEntries` lists its set. -/
def parse (adjustTraddr : GoString → Bool) : UserFile → Except ParseFailure (List Entry)
  | .unopenable => .error .openFile
  | .content bytes readError =>
    match parseLines adjustTraddr (scanLines bytes) with
    | .error f => .error f
    | .ok entries => if readError then .error .scanner else .ok (removeDupEntries entries)

/-- What holds of every entry `parse` returns. -/
structure Parsed (e : Entry) : Prop where
  verified : e.Verified
  transport : e.transport = ascii "tcp"
  source : e.entrySource = .user
  noEffectiveHostid : e.effectiveHostid = []

/-- What holds of the entry of a line while its tokens are read. -/
def Draft (e : Entry) : Prop :=
  (e.transport = [] ∨ e.transport = ascii "tcp") ∧ e.effectiveHostid = []

theorem Flag.set_draft {adjustTraddr : GoString → Bool} {flag : Flag} {e e' : Entry}
    {token : GoString} (he : Draft e) (h : flag.set adjustTraddr e token = .ok e') : Draft e' := by
  cases flag with
  | traddr | transport =>
    simp only [Flag.set] at h
    split at h
    next hok => cases Except.ok.inj h; simp_all [Draft]
    next => simp at h
  | trsvcid | ctrlLossTMO =>
    simp only [Flag.set] at h
    split at h
    next => cases Except.ok.inj h; exact he
    next => simp at h
  | hostnqn | hostid | subsysnqn | persistent => cases Except.ok.inj h; exact he

theorem parseTokens_draft {adjustTraddr : GoString → Bool} {tokens : List GoString} {e e' : Entry}
    (he : Draft e) (h : parseTokens adjustTraddr tokens e = .ok e') : Draft e' := by
  fun_induction parseTokens adjustTraddr tokens e with
  | case1 e => cases Except.ok.inj h; exact he
  | case2 => simp at h
  | case3 token rest e hflag ih => exact ih he h
  | case4 => simp at h
  | case5 => simp at h
  | case6 token e flag hflag _ value rest e₁ hset ih => exact ih (Flag.set_draft he hset) h

theorem parseLine_parsed {adjustTraddr : GoString → Bool} {text : GoString} {e : Entry}
    (h : parseLine adjustTraddr text = .ok (some e)) : Parsed e := by
  simp only [parseLine] at h
  split at h
  · simp at h
  split at h
  · simp at h
  next e₁ htokens =>
    split at h
    next hv =>
      have hdraft := parseTokens_draft (e := {}) ⟨Or.inl rfl, rfl⟩ htokens
      have hverified := Entry.verify_ok_iff.mp hv
      simp only [Except.ok.injEq, Option.some.injEq] at h
      subst h
      exact ⟨hverified, hdraft.1.resolve_left hverified.2.2.2.1, rfl, hdraft.2⟩
    next => simp at h

/-- A file that is read gives what its first line gives and what the other lines give. -/
theorem parseLines_cons_ok {adjustTraddr : GoString → Bool} {line : GoString}
    {lines : List GoString} {entries : List Entry}
    (h : parseLines adjustTraddr (line :: lines) = .ok entries) :
    line.length < maxScanTokenSize ∧
      ∃ entry rest, parseLine adjustTraddr (dropCR line) = .ok entry ∧
        parseLines adjustTraddr lines = .ok rest ∧ entries = entry.toList ++ rest := by
  simp only [parseLines] at h
  split at h
  · simp at h
  next hshort =>
    split at h
    · simp at h
    next entry hline =>
      split at h
      · simp at h
      next rest hrest =>
        exact ⟨Nat.not_le.mp hshort, entry, rest, hline, hrest, (Except.ok.inj h).symm⟩

theorem parseLines_parsed {adjustTraddr : GoString → Bool} {lines : List GoString}
    {entries : List Entry} (h : parseLines adjustTraddr lines = .ok entries) :
    ∀ e ∈ entries, Parsed e := by
  induction lines generalizing entries with
  | nil => cases Except.ok.inj h; simp
  | cons line lines ih =>
    obtain ⟨-, entry, rest, hline, hrest, rfl⟩ := parseLines_cons_ok h
    intro e he
    rcases List.mem_append.mp he with he | he
    · rw [Option.mem_toList] at he
      exact parseLine_parsed (he ▸ hline)
    · exact ih hrest e he

theorem mem_foldl_insertEntry {entries entriesSet : List Entry} {e : Entry}
    (h : e ∈ entries.foldl insertEntry entriesSet) : e ∈ entriesSet ∨ e ∈ entries := by
  induction entries generalizing entriesSet with
  | nil => exact Or.inl h
  | cons x entries ih =>
    rcases ih h with h | h
    · unfold insertEntry at h
      split at h
      · exact Or.inl h
      · simp only [List.mem_append, List.mem_singleton] at h
        exact h.imp_right fun h => by simp [h]
    · exact Or.inr (List.mem_cons_of_mem x h)

theorem parse_parsed {adjustTraddr : GoString → Bool} {file : UserFile} {entries : List Entry}
    (h : parse adjustTraddr file = .ok entries) : ∀ e ∈ entries, Parsed e := by
  cases file with
  | unopenable => simp [parse] at h
  | content bytes readError =>
    simp only [parse] at h
    split at h
    · simp at h
    next parsed hlines =>
      split at h
      · simp at h
      · cases Except.ok.inj h
        exact fun e he => parseLines_parsed hlines e
          ((mem_foldl_insertEntry he).resolve_left List.not_mem_nil)

end DiscoveryClient
