import DiscoveryClient.ConfTokens
import DiscoveryClient.GoDecimal

namespace DiscoveryClient

open GoString

def Flag.spelling (long : Bool) : Flag → GoString
  | .traddr => ascii (if long then "--traddr" else "-a")
  | .transport => ascii (if long then "--transport" else "-t")
  | .trsvcid => ascii (if long then "--trsvcid" else "-s")
  | .hostnqn => ascii (if long then "--hostnqn" else "-q")
  | .hostid => ascii (if long then "--hostid" else "-I")
  | .subsysnqn => ascii (if long then "--subsysnqn" else "-n")
  | .persistent => ascii (if long then "--persistent" else "-p")
  | .ctrlLossTMO => ascii (if long then "--ctrl-loss-tmo" else "-l")

/-- What stands behind a flag on a line for the entry; nothing behind `--persistent`. -/
def Flag.value (e : Entry) : Flag → List GoString
  | .traddr => [e.traddr]
  | .transport => [e.transport]
  | .trsvcid => [formatInt e.trsvcid]
  | .hostnqn => [e.hostnqn]
  | .hostid => [e.hostid]
  | .subsysnqn => [e.subsysnqn]
  | .persistent => []
  | .ctrlLossTMO => [formatInt (e.ctrlLossTMO.getD 0)]

/-- The flags a line for the entry has, in one of their orders. -/
def Entry.flags (e : Entry) : List Flag :=
  [.transport, .traddr, .trsvcid, .hostnqn, .subsysnqn] ++
    ((if e.hostid = [] then [] else [.hostid]) ++
      ((if e.ctrlLossTMO = none then [] else [.ctrlLossTMO]) ++
        if e.persistent then [.persistent] else []))

/-- A flag in one of its two spellings. -/
structure Setting where
  flag : Flag
  long : Bool

def Setting.tokens (e : Entry) (s : Setting) : List GoString :=
  s.flag.spelling s.long :: s.flag.value e

/-- The tokens one after the other, with separators between them and maybe behind the last. -/
inductive Spaced : List GoString → GoString → Prop
  | last {token margin : GoString} : Separator margin → Spaced [token] (token ++ margin)
  | cons {token gap text : GoString} {tokens : List GoString} : Separator gap → gap ≠ [] →
      Spaced tokens text → Spaced (token :: tokens) (token ++ (gap ++ text))

/-- Nothing, or a text that starts with `#`. -/
def Comment (text : GoString) : Prop := ∀ b ∈ text.head?, b = 0x23

/-- One line for an entry: its flags in any order, each once. -/
inductive RendersLine (e : Entry) : GoString → Prop
  | intro {settings : List Setting} {margin text comment : GoString} :
      (settings.map Setting.flag).Perm e.flags → Separator margin →
      Spaced (settings.flatMap (Setting.tokens e)) text → Comment comment →
      RendersLine e (margin ++ (text ++ comment))

/-- A blank line or one that is only a comment. -/
inductive Ignored : GoString → Prop
  | intro {margin comment : GoString} : Separator margin → Comment comment →
      Ignored (margin ++ comment)

inductive RendersLines : List Entry → List GoString → Prop
  | nil : RendersLines [] []
  | entry {e : Entry} {es : List Entry} {line : GoString} {lines : List GoString} :
      RendersLine e line → RendersLines es lines → RendersLines (e :: es) (line :: lines)
  | ignored {es : List Entry} {line : GoString} {lines : List GoString} :
      Ignored line → RendersLines es lines → RendersLines es (line :: lines)

/-- A text without a newline that the scanner can hold. -/
def OneLine (line : GoString) : Prop := 0x0A ∉ line ∧ line.length < maxScanTokenSize

/-- A file for the entries. An empty last line is a newline at its end. -/
def Renders (es : List Entry) (bytes : GoString) : Prop :=
  ∃ lines, RendersLines es lines ∧ (∀ line ∈ lines, OneLine line) ∧
    bytes = List.intercalate [0x0A] lines

/-- The entries a file can give. -/
structure Renderable (adjustTraddr : GoString → Bool) (e : Entry) : Prop where
  transport : e.transport = ascii "tcp"
  traddr : Token e.traddr
  adjusted : adjustTraddr e.traddr = true
  trsvcid : 1 ≤ e.trsvcid ∧ e.trsvcid ≤ 65535
  hostnqn : Token e.hostnqn
  subsysnqn : Token e.subsysnqn
  hostid : e.hostid = [] ∨ Token e.hostid
  ctrlLossTMO : ∀ n ∈ e.ctrlLossTMO, -1 ≤ n ∧ n < 2 ^ 31
  hostaddr : e.hostaddr = []
  effectiveHostid : e.effectiveHostid = []

def Entry.asUser (e : Entry) : Entry := { e with entrySource := .user }

/-- The file is parsed without an error, into the given entries as a set. -/
def ParsesTo (adjustTraddr : GoString → Bool) (bytes : GoString) (es : List Entry) : Prop :=
  ∃ parsed, parse adjustTraddr (.content bytes false) = .ok parsed ∧ ∀ e, e ∈ parsed ↔ e ∈ es

/-- What a flag of a line for `e` does to the entry read so far. -/
def Flag.copy (e d : Entry) : Flag → Entry
  | .traddr => { d with traddr := e.traddr }
  | .transport => { d with transport := e.transport }
  | .trsvcid => { d with trsvcid := e.trsvcid }
  | .hostnqn => { d with hostnqn := e.hostnqn }
  | .hostid => { d with hostid := e.hostid }
  | .subsysnqn => { d with subsysnqn := e.subsysnqn }
  | .persistent => { d with persistent := true }
  | .ctrlLossTMO => { d with ctrlLossTMO := e.ctrlLossTMO }

section Tokens

variable {adjustTraddr : GoString → Bool} {e d : Entry} {flag : Flag} {tokens : List GoString}
  {text : GoString}

theorem Flag.ofField_spelling (long : Bool) (flag : Flag) :
    Flag.ofField (trimSpace (flag.spelling long)) = some flag := by
  cases long <;> cases flag <;> decide +kernel

theorem Flag.token_spelling (long : Bool) (flag : Flag) : Token (flag.spelling long) := by
  cases long <;> cases flag <;> decide +kernel

theorem token_formatInt (n : Int) : Token (formatInt n) := by
  have hbytes : ∀ b ∈ formatInt n, b.toNat < 0x80 ∧ splitSpacesAndEqualSign b.toNat = false := by
    intro b hb
    obtain ⟨hlo, hhi⟩ := mem_formatInt hb
    refine ⟨by omega, ?_⟩
    simp only [splitSpacesAndEqualSign, isSpace, Bool.or_eq_false_iff, Bool.and_eq_false_iff,
      decide_eq_false_iff_not, beq_eq_false_iff_ne]
    omega
  refine ⟨word_of_ascii (formatInt_ne_nil n) hbytes, ?_⟩
  intro hhash
  have hb := mem_formatInt hhash
  simp at hb

theorem Entry.hostid_ne_nil_of_flag (h : Flag.hostid ∈ e.flags) : e.hostid ≠ [] := by
  intro hnil
  simp [Entry.flags, hnil] at h

theorem Entry.ctrlLossTMO_of_flag (h : Flag.ctrlLossTMO ∈ e.flags) :
    ∃ n, e.ctrlLossTMO = some n := by
  cases htmo : e.ctrlLossTMO with
  | some n => exact ⟨n, rfl⟩
  | none => simp [Entry.flags, htmo] at h

/-- Every flag of a line but `--persistent` has one value, and sets it. -/
theorem Flag.set_value (he : Renderable adjustTraddr e) (hflag : flag ∈ e.flags)
    (hnot : flag ≠ .persistent) :
    ∃ token, flag.value e = [token] ∧ Token token ∧
      flag.set adjustTraddr d token = .ok (flag.copy e d) := by
  cases flag with
  | traddr =>
    refine ⟨e.traddr, rfl, he.traddr, ?_⟩
    simp [Flag.set, Flag.copy, he.traddr.trimSpace_eq, he.adjusted]
  | transport =>
    have htcp : Token e.transport := by
      rw [he.transport]
      decide +kernel
    refine ⟨e.transport, rfl, htcp, ?_⟩
    rw [Flag.set, htcp.trimSpace_eq, if_pos he.transport]
    rfl
  | trsvcid =>
    have hport := he.trsvcid
    have hparse := @parseInt_formatInt 32 e.trsvcid (by omega) (by omega)
    refine ⟨formatInt e.trsvcid, rfl, token_formatInt _, ?_⟩
    simp [Flag.set, Flag.copy, (token_formatInt _).trimSpace_eq, hparse]
  | hostnqn =>
    refine ⟨e.hostnqn, rfl, he.hostnqn, ?_⟩
    simp [Flag.set, Flag.copy, he.hostnqn.trimSpace_eq]
  | hostid =>
    have htoken := he.hostid.resolve_left (Entry.hostid_ne_nil_of_flag hflag)
    refine ⟨e.hostid, rfl, htoken, ?_⟩
    simp [Flag.set, Flag.copy, htoken.trimSpace_eq]
  | subsysnqn =>
    refine ⟨e.subsysnqn, rfl, he.subsysnqn, ?_⟩
    simp [Flag.set, Flag.copy, he.subsysnqn.trimSpace_eq]
  | persistent => exact absurd rfl hnot
  | ctrlLossTMO =>
    obtain ⟨n, htmo⟩ := Entry.ctrlLossTMO_of_flag hflag
    have hrange := he.ctrlLossTMO n htmo
    have hparse := @parseInt_formatInt 32 n (by omega) (by omega)
    refine ⟨formatInt n, by simp [Flag.value, htmo], token_formatInt _, ?_⟩
    simp [Flag.set, Flag.copy, (token_formatInt _).trimSpace_eq, hparse, htmo]

theorem Setting.token_of_mem (he : Renderable adjustTraddr e) {s : Setting}
    (hs : s.flag ∈ e.flags) : ∀ t ∈ s.tokens e, Token t := by
  intro t ht
  rcases List.mem_cons.mp ht with rfl | ht
  · exact s.flag.token_spelling s.long
  · by_cases hnot : s.flag = .persistent
    · rw [hnot] at ht
      simp [Flag.value] at ht
    · obtain ⟨token, hvalue, htoken, -⟩ := Flag.set_value (d := {}) he hs hnot
      rw [hvalue, List.mem_singleton] at ht
      rwa [ht]

/-- One setting of a line copies the field it is for. -/
theorem parseTokens_setting (he : Renderable adjustTraddr e) {s : Setting}
    (hs : s.flag ∈ e.flags) (rest : List GoString) :
    parseTokens adjustTraddr (s.tokens e ++ rest) d =
      parseTokens adjustTraddr rest (s.flag.copy e d) := by
  obtain ⟨flag, long⟩ := s
  have hfield := Flag.ofField_spelling long flag
  by_cases hnot : flag = .persistent
  · subst hnot
    simp only [Setting.tokens, List.cons_append, parseTokens, hfield]
    rfl
  · obtain ⟨token, hvalue, -, hset⟩ := Flag.set_value (d := d) he hs hnot
    simp only [Setting.tokens, hvalue, List.cons_append, parseTokens, hfield]
    simp only [hset, List.nil_append]

theorem parseTokens_settings (he : Renderable adjustTraddr e) {settings : List Setting}
    (hs : ∀ s ∈ settings, s.flag ∈ e.flags) :
    parseTokens adjustTraddr (settings.flatMap (Setting.tokens e)) d =
      .ok ((settings.map Setting.flag).foldl (Flag.copy e) d) := by
  induction settings generalizing d with
  | nil => rfl
  | cons s settings ih =>
    obtain ⟨hfirst, hs⟩ := List.forall_mem_cons.mp hs
    rw [List.flatMap_cons, parseTokens_setting he hfirst, ih hs, List.map_cons, List.foldl_cons]

/-- Each flag writes a field of its own, so their order does not matter. -/
theorem Flag.copy_comm (e d : Entry) (first second : Flag) :
    second.copy e (first.copy e d) = first.copy e (second.copy e d) := by
  cases first <;> cases second <;> rfl

theorem Entry.foldl_copy_flags (he : Renderable adjustTraddr e) :
    (e.flags.foldl (Flag.copy e) {}).asUser = e.asUser := by
  have haddr := he.hostaddr
  have heffective := he.effectiveHostid
  cases e with
  | mk transport trsvcid traddr hostnqn hostid subsysnqn persistent hostaddr entrySource
      ctrlLossTMO effectiveHostid =>
    cases persistent <;> cases ctrlLossTMO <;> cases hostid <;>
      simp_all [Entry.flags, Flag.copy, Entry.asUser]

theorem Spaced.fields (spaced : Spaced tokens text) (htokens : ∀ t ∈ tokens, Token t) :
    fieldsFunc splitSpacesAndEqualSign text = tokens ∧ 0x23 ∉ text := by
  induction spaced with
  | @last token margin hmargin =>
    have htoken := htokens token List.mem_cons_self
    rw [fieldsFunc_gap_right hmargin split_replacement, fieldsFunc_word htoken.1, List.mem_append]
    refine ⟨rfl, ?_⟩
    rintro (h | h)
    · exact htoken.2 h
    · exact Separator.hash_not_mem hmargin h
  | @cons token gap text tokens hgap hne _ ih =>
    obtain ⟨htoken, htokens⟩ := List.forall_mem_cons.mp htokens
    obtain ⟨hfields, hhash⟩ := ih htokens
    rw [fieldsFunc_append_gap hgap split_replacement hne, fieldsFunc_word htoken.1, hfields,
      List.mem_append, List.mem_append]
    refine ⟨rfl, ?_⟩
    rintro (h | h | h)
    · exact htoken.2 h
    · exact Separator.hash_not_mem hgap h
    · exact hhash h

theorem Renderable.verified (he : Renderable adjustTraddr e) : e.asUser.Verified := by
  have htcp : e.transport ≠ [] := by
    rw [he.transport]
    decide
  have hport := he.trsvcid
  refine ⟨he.subsysnqn.1.1, he.traddr.1.1, ?_, htcp, he.hostnqn.1.1, ?_⟩
  · change e.trsvcid ≠ 0
    omega
  · exact fun n hn => (he.ctrlLossTMO n hn).1

end Tokens

section Lines

variable {adjustTraddr : GoString → Bool} {e : Entry} {es : List Entry} {line : GoString}
  {lines : List GoString}

theorem parseLine_of_verified {d : Entry}
    (h : parseTokens adjustTraddr (lineTokens line) {} = .ok d) (hv : d.asUser.Verified) :
    parseLine adjustTraddr (dropCR line) = .ok (some d.asUser) := by
  have hverify : ({ d with entrySource := .user } : Entry).verify = .ok () :=
    Entry.verify_ok_iff.mpr hv
  rw [parseLine_eq, h]
  simp only [hverify]
  rfl

theorem parseLine_of_renders (he : Renderable adjustTraddr e) (h : RendersLine e line) :
    parseLine adjustTraddr (dropCR line) = .ok (some e.asUser) := by
  obtain ⟨hperm, hmargin, hspaced, hcomment⟩ := h
  next settings margin text comment =>
    have hflags : ∀ s ∈ settings, s.flag ∈ e.flags := fun s hs =>
      hperm.mem_iff.mp (List.mem_map_of_mem hs)
    have htokens : ∀ t ∈ settings.flatMap (Setting.tokens e), Token t := by
      intro t ht
      obtain ⟨s, hs, ht⟩ := List.mem_flatMap.mp ht
      exact s.token_of_mem he (hflags s hs) t ht
    obtain ⟨hfields, hhash⟩ := hspaced.fields htokens
    have hline : lineTokens (margin ++ (text ++ comment)) =
        settings.flatMap (Setting.tokens e) := by
      rw [lineTokens_eq, fields_hashtag_prepend hmargin,
        trimStringFromHashtag_of_not_mem hhash comment hcomment, hfields]
    have hfold : (settings.map Setting.flag).foldl (Flag.copy e) {} =
        e.flags.foldl (Flag.copy e) {} :=
      hperm.foldl_eq' (fun x _ y _ d => Flag.copy_comm e d x y) {}
    have hread := parseTokens_settings (d := {}) he hflags
    have hcopy := Entry.foldl_copy_flags he
    rw [hfold, ← hline] at hread
    rw [parseLine_of_verified hread (hcopy ▸ he.verified), hcopy]

theorem parseLine_of_ignored (h : Ignored line) :
    parseLine adjustTraddr (dropCR line) = .ok none := by
  obtain ⟨hmargin, hcomment⟩ := h
  next margin comment =>
    have htokens : lineTokens (margin ++ comment) = [] := by
      have hnone := trimStringFromHashtag_of_not_mem (s := []) (by simp) comment hcomment
      rw [List.nil_append] at hnone
      rw [lineTokens_eq, fields_hashtag_prepend hmargin, hnone, fieldsFunc_nil]
    rw [parseLine_eq, htokens]
    rfl

theorem parseLines_of_renders (hes : ∀ e ∈ es, Renderable adjustTraddr e)
    (h : RendersLines es lines) (hlines : ∀ line ∈ lines, OneLine line) :
    parseLines adjustTraddr lines = .ok (es.map Entry.asUser) := by
  induction h with
  | nil => rfl
  | @entry e es line lines hline _ ih =>
    obtain ⟨he, hes⟩ := List.forall_mem_cons.mp hes
    obtain ⟨hone, hlines⟩ := List.forall_mem_cons.mp hlines
    have hlen : ¬maxScanTokenSize ≤ line.length := by
      have hshort := hone.2
      omega
    rw [parseLines, if_neg hlen, parseLine_of_renders he hline, ih hes hlines]
    rfl
  | @ignored es line lines hline _ ih =>
    obtain ⟨hone, hlines⟩ := List.forall_mem_cons.mp hlines
    have hlen : ¬maxScanTokenSize ≤ line.length := by
      have hshort := hone.2
      omega
    rw [parseLines, if_neg hlen, parseLine_of_ignored hline, ih hes hlines]
    rfl

theorem parseLines_append_blank (lines : List GoString) :
    parseLines adjustTraddr (lines ++ [[]]) = parseLines adjustTraddr lines := by
  induction lines with
  | nil => rfl
  | cons line lines ih => rw [List.cons_append, parseLines, parseLines, ih]

/-- What follows the last newline can be read as a line also when it is empty. -/
theorem parseLines_scanLines (bytes : GoString) :
    parseLines adjustTraddr (scanLines bytes) =
      parseLines adjustTraddr (bytes.splitOnP (· == 0x0A)) := by
  unfold scanLines
  simp only
  split
  next hlast =>
    obtain ⟨lines, hlines⟩ := List.getLast?_eq_some_iff.mp hlast
    rw [hlines, List.dropLast_concat, parseLines_append_blank]
  next => rfl

theorem splitOnP_intercalate (hne : lines ≠ []) (hlines : ∀ line ∈ lines, 0x0A ∉ line) :
    (List.intercalate [0x0A] lines).splitOnP (· == (0x0A : UInt8)) = lines :=
  List.splitOn_intercalate 0x0A hlines hne

theorem parseLines_file (hlines : ∀ line ∈ lines, 0x0A ∉ line) :
    parseLines adjustTraddr (scanLines (List.intercalate [0x0A] lines)) =
      parseLines adjustTraddr lines := by
  cases lines with
  | nil => rfl
  | cons line lines => rw [parseLines_scanLines, splitOnP_intercalate (by simp) hlines]

theorem mem_insertEntry {entriesSet : List Entry} {x : Entry} :
    e ∈ insertEntry entriesSet x ↔ e ∈ entriesSet ∨ e = x := by
  unfold insertEntry
  split
  next h =>
    constructor
    · exact Or.inl
    · rintro (he | rfl)
      · exact he
      · exact h.2
  next => rw [List.mem_append, List.mem_singleton]

theorem mem_removeDupEntries {entries : List Entry} : e ∈ removeDupEntries entries ↔ e ∈ entries := by
  have hfold : ∀ entriesSet : List Entry,
      e ∈ entries.foldl insertEntry entriesSet ↔ e ∈ entriesSet ∨ e ∈ entries := by
    induction entries with
    | nil => simp
    | cons x entries ih =>
      intro entriesSet
      rw [List.foldl_cons, ih, mem_insertEntry, List.mem_cons, or_assoc]
  rw [removeDupEntries, hfold]
  simp

end Lines

/-- The parser reads back every file that is written for the entries. -/
theorem parsesTo_of_renders {adjustTraddr : GoString → Bool} {es : List Entry} {bytes : GoString}
    (hes : ∀ e ∈ es, Renderable adjustTraddr e) (h : Renders es bytes) :
    ParsesTo adjustTraddr bytes (es.map Entry.asUser) := by
  obtain ⟨lines, hrenders, hlines, rfl⟩ := h
  have hparse := parseLines_of_renders hes hrenders hlines
  rw [← parseLines_file fun line hline => (hlines line hline).1] at hparse
  refine ⟨removeDupEntries (es.map Entry.asUser), ?_, fun e => mem_removeDupEntries⟩
  rw [parse, hparse]
  rfl

namespace Commonstructs

/-- `commonstructs.Entry`, what a generated file is written from. -/
structure Entry where
  transport : GoString
  traddr : GoString
  trsvcid : Int
  hostnqn : GoString
  nqn : GoString
  hostID : GoString
deriving DecidableEq, Repr

def Entry.string (entry : Entry) : GoString :=
  ascii "-t " ++ entry.transport ++ ascii " -a " ++ entry.traddr ++ ascii " -s " ++
    formatInt entry.trsvcid ++ ascii " -q " ++ entry.hostnqn ++ ascii " -n " ++ entry.nqn ++
    ascii " --hostid " ++ entry.hostID ++ ascii "\n"

/-- Every entry is printed with a newline of its own behind the one of its line. -/
def entriesToString (entries : List Entry) : GoString :=
  entries.flatMap fun entry => entry.string ++ ascii "\n"

/-- The same fields as an entry of the parser. -/
def Entry.toConfig (entry : Entry) : DiscoveryClient.Entry :=
  { transport := entry.transport
    traddr := entry.traddr
    trsvcid := entry.trsvcid
    hostnqn := entry.hostnqn
    subsysnqn := entry.nqn
    hostid := entry.hostID }

/-- The line of an entry, without its newline. -/
def Entry.line (entry : Entry) : GoString :=
  ascii "-t " ++ entry.transport ++ ascii " -a " ++ entry.traddr ++ ascii " -s " ++
    formatInt entry.trsvcid ++ ascii " -q " ++ entry.hostnqn ++ ascii " -n " ++ entry.nqn ++
    ascii " --hostid " ++ entry.hostID

theorem Entry.string_eq (entry : Entry) : entry.string = entry.line ++ [0x0A] := rfl

/-- The lines of the file: each entry is followed by a blank line. -/
def lines (entries : List Entry) : List GoString :=
  entries.flatMap (fun entry => [entry.line, []]) ++ [[]]

theorem entriesToString_eq (entries : List Entry) :
    entriesToString entries = List.intercalate [0x0A] (lines entries) := by
  induction entries with
  | nil => rfl
  | cons entry entries ih =>
    have hne : lines entries ≠ [] := by simp [lines]
    obtain ⟨line, rest, hlines⟩ := List.exists_cons_of_ne_nil hne
    have hcons : lines (entry :: entries) = entry.line :: [] :: lines entries := rfl
    rw [hcons, hlines]
    rw [hlines] at ih
    rw [entriesToString, List.flatMap_cons, ← entriesToString, ih, Entry.string_eq]
    simp [List.intercalate, ascii]

/-- The tokens of the line, one space between any two of them. -/
theorem Entry.line_eq (entry : Entry) :
    entry.line = ascii "-t" ++ ([0x20] ++ (entry.transport ++ ([0x20] ++
      (ascii "-a" ++ ([0x20] ++ (entry.traddr ++ ([0x20] ++
      (ascii "-s" ++ ([0x20] ++ (formatInt entry.trsvcid ++ ([0x20] ++
      (ascii "-q" ++ ([0x20] ++ (entry.hostnqn ++ ([0x20] ++
      (ascii "-n" ++ ([0x20] ++ (entry.nqn ++ ([0x20] ++
      (ascii "--hostid" ++ ([0x20] ++ entry.hostID))))))))))))))))))))) := by
  have ht : ascii "-t " = ascii "-t" ++ [0x20] := rfl
  have ha : ascii " -a " = [0x20] ++ (ascii "-a" ++ [0x20]) := rfl
  have hs : ascii " -s " = [0x20] ++ (ascii "-s" ++ [0x20]) := rfl
  have hq : ascii " -q " = [0x20] ++ (ascii "-q" ++ [0x20]) := rfl
  have hn : ascii " -n " = [0x20] ++ (ascii "-n" ++ [0x20]) := rfl
  have hi : ascii " --hostid " = [0x20] ++ (ascii "--hostid" ++ [0x20]) := rfl
  simp only [Entry.line, ht, ha, hs, hq, hn, hi, List.append_assoc]

def Entry.settings : List Setting :=
  [⟨.transport, false⟩, ⟨.traddr, false⟩, ⟨.trsvcid, false⟩, ⟨.hostnqn, false⟩,
    ⟨.subsysnqn, false⟩, ⟨.hostid, true⟩]

theorem spaced_space {token text : GoString} {tokens : List GoString} (h : Spaced tokens text) :
    Spaced (token :: tokens) (token ++ ([0x20] ++ text)) :=
  .cons (by decide) (by simp) h

theorem Entry.spaced (entry : Entry) :
    Spaced (Entry.settings.flatMap (Setting.tokens entry.toConfig)) entry.line := by
  have hlast : Spaced [entry.hostID] entry.hostID := by
    have h := @Spaced.last entry.hostID [] Gap.nil
    rwa [List.append_nil] at h
  rw [Entry.line_eq]
  exact spaced_space <| spaced_space <| spaced_space <| spaced_space <| spaced_space <|
    spaced_space <| spaced_space <| spaced_space <| spaced_space <| spaced_space <|
    spaced_space hlast

theorem Entry.rendersLine {entry : Entry} (hhostid : entry.hostID ≠ []) :
    RendersLine entry.toConfig entry.line := by
  have hflags : entry.toConfig.flags = Entry.settings.map Setting.flag := by
    simp [DiscoveryClient.Entry.flags, Entry.toConfig, Entry.settings, hhostid]
  have hperm : (Entry.settings.map Setting.flag).Perm entry.toConfig.flags := by rw [hflags]
  have h := RendersLine.intro hperm (Gap.nil : Separator []) entry.spaced
    (fun b hb => by simp at hb : Comment [])
  rwa [List.append_nil, List.nil_append] at h

theorem newline_not_mem_token {t : GoString} (token : Token t) : 0x0A ∉ t :=
  Word.not_mem token.1 (by decide) (by decide)

theorem Entry.newline_not_mem_line {entry : Entry} (htransport : entry.transport = ascii "tcp")
    (htraddr : Token entry.traddr) (hhostnqn : Token entry.hostnqn) (hnqn : Token entry.nqn)
    (hid : Token entry.hostID) : 0x0A ∉ entry.line := by
  have htransport : 0x0A ∉ entry.transport := by
    rw [htransport]
    decide
  have htraddr := newline_not_mem_token htraddr
  have hhostnqn := newline_not_mem_token hhostnqn
  have hnqn := newline_not_mem_token hnqn
  have hid := newline_not_mem_token hid
  have hport := newline_not_mem_token (token_formatInt entry.trsvcid)
  rw [Entry.line_eq]
  simp only [List.mem_append, htransport, htraddr, hhostnqn, hnqn, hid, hport, or_false, false_or]
  decide

theorem rendersLines {entries : List Entry} (h : ∀ entry ∈ entries, entry.hostID ≠ []) :
    RendersLines (entries.map Entry.toConfig) (lines entries) := by
  have hblank : Ignored [] := @Ignored.intro [] [] Gap.nil (by simp [Comment])
  induction entries with
  | nil => exact .ignored hblank .nil
  | cons entry entries ih =>
    obtain ⟨hentry, h⟩ := List.forall_mem_cons.mp h
    exact .entry (Entry.rendersLine hentry) (.ignored hblank (ih h))

theorem lines_oneLine {entries : List Entry} (h : ∀ entry ∈ entries, OneLine entry.line) :
    ∀ line ∈ lines entries, OneLine line := by
  have hblank : OneLine [] := ⟨by simp, by decide⟩
  intro line hline
  rcases List.mem_append.mp hline with hline | hline
  · obtain ⟨entry, hentry, hline⟩ := List.mem_flatMap.mp hline
    rcases List.mem_cons.mp hline with rfl | hline
    · exact h entry hentry
    · rw [List.mem_singleton] at hline
      rwa [hline]
  · rw [List.mem_singleton] at hline
    rwa [hline]

theorem renders_entriesToString {adjustTraddr : GoString → Bool} {entries : List Entry}
    (hes : ∀ entry ∈ entries, Renderable adjustTraddr entry.toConfig)
    (h : ∀ entry ∈ entries, entry.hostID ≠ [] ∧ entry.line.length < maxScanTokenSize) :
    Renders (entries.map Entry.toConfig) (entriesToString entries) := by
  refine ⟨lines entries, rendersLines fun entry hentry => (h entry hentry).1, ?_,
    entriesToString_eq entries⟩
  apply lines_oneLine
  intro entry hentry
  obtain ⟨hhostid, hlen⟩ := h entry hentry
  have he := hes entry hentry
  exact ⟨Entry.newline_not_mem_line he.transport he.traddr he.hostnqn he.subsysnqn
    (he.hostid.resolve_left hhostid), hlen⟩

end Commonstructs

open Commonstructs in
/-- Every file for the entries, and among them the one `commonstructs.EntriesToString` writes, is
parsed into the entries. -/
theorem parse_inverts_rendering (adjustTraddr : GoString → Bool) (es : List Entry)
    (hes : ∀ e ∈ es, Renderable adjustTraddr e) :
    (∀ bytes, Renders es bytes → ParsesTo adjustTraddr bytes (es.map Entry.asUser)) ∧
      ∀ entries : List Commonstructs.Entry, entries.map Entry.toConfig = es →
        (∀ entry ∈ entries, entry.hostID ≠ [] ∧ entry.line.length < maxScanTokenSize) →
        Renders es (entriesToString entries) := by
  refine ⟨fun bytes h => parsesTo_of_renders hes h, ?_⟩
  rintro entries rfl h
  have hentries : ∀ entry ∈ entries, Renderable adjustTraddr entry.toConfig :=
    fun entry hentry => hes _ (List.mem_map_of_mem hentry)
  exact renders_entriesToString hentries h

def sampleConf : Commonstructs.Entry :=
  ⟨ascii "tcp", ascii "192.168.1.1", 8009, ascii "nqn.h", ascii "nqn.c", ascii "7d5d"⟩

theorem sampleConf_renderable : Renderable (fun _ => true) sampleConf.toConfig where
  transport := rfl
  traddr := by decide +kernel
  adjusted := rfl
  trsvcid := by decide
  hostnqn := by decide +kernel
  subsysnqn := by decide +kernel
  hostid := by decide +kernel
  ctrlLossTMO := by decide
  hostaddr := rfl
  effectiveHostid := rfl

/-- A second entry, without a host id but with the other flags. -/
def secondConf : Entry :=
  { sampleConf.toConfig with
    traddr := ascii "192.168.1.2", hostid := [], ctrlLossTMO := some 60, persistent := true }

theorem secondConf_renderable : Renderable (fun _ => true) secondConf where
  transport := rfl
  traddr := by decide +kernel
  adjusted := rfl
  trsvcid := by decide
  hostnqn := by decide +kernel
  subsysnqn := by decide +kernel
  hostid := Or.inl rfl
  ctrlLossTMO := by decide
  hostaddr := rfl
  effectiveHostid := rfl

theorem spaced_intercalate (token : GoString) (tokens : List GoString) :
    Spaced (token :: tokens) (List.intercalate [0x20] (token :: tokens)) := by
  induction tokens generalizing token with
  | nil =>
    have h := @Spaced.last token [] Gap.nil
    rw [List.append_nil] at h
    simpa [List.intercalate] using h
  | cons next tokens ih =>
    have h := @Commonstructs.spaced_space token _ _ (ih next)
    simpa [List.intercalate] using h

/-- A line with one space between any two tokens. -/
theorem rendersLine_intercalate {e : Entry} {s : Setting} {settings : List Setting}
    (hperm : ((s :: settings).map Setting.flag).Perm e.flags) :
    RendersLine e (List.intercalate [0x20] ((s :: settings).flatMap (Setting.tokens e))) := by
  have h := RendersLine.intro hperm (Gap.nil : Separator []) (spaced_intercalate _ _)
    (fun b hb => by simp at hb : Comment [])
  rwa [List.append_nil, List.nil_append] at h

/-- Two entries with their flags in different orders and spellings, behind a comment. -/
theorem parse_inverts_rendering_sample :
    ParsesTo (fun _ => true)
      (ascii "# both services\n" ++
        ascii "-a 192.168.1.1 --transport tcp -s 8009 -n nqn.c --hostnqn nqn.h -I 7d5d\n" ++
        ascii "-l 60 -n nqn.c -q nqn.h -t tcp -p --traddr 192.168.1.2 --trsvcid 8009")
      [sampleConf.toConfig.asUser, secondConf.asUser] := by
  have hcomment : Ignored (ascii "# both services") :=
    @Ignored.intro [] (ascii "# both services") Gap.nil (by unfold Comment; decide +kernel)
  have hfirst := @rendersLine_intercalate sampleConf.toConfig ⟨.traddr, false⟩
    [⟨.transport, true⟩, ⟨.trsvcid, false⟩, ⟨.subsysnqn, false⟩, ⟨.hostnqn, true⟩,
      ⟨.hostid, false⟩] (by decide)
  have hsecond := @rendersLine_intercalate secondConf ⟨.ctrlLossTMO, false⟩
    [⟨.subsysnqn, false⟩, ⟨.hostnqn, false⟩, ⟨.transport, false⟩, ⟨.persistent, false⟩,
      ⟨.traddr, true⟩, ⟨.trsvcid, true⟩] (by decide)
  refine (parse_inverts_rendering (fun _ => true) [sampleConf.toConfig, secondConf] ?_).1 _
    ⟨_, .ignored hcomment (.entry hfirst (.entry hsecond .nil)), ?_, ?_⟩
  · simpa using ⟨sampleConf_renderable, secondConf_renderable⟩
  · unfold OneLine
    decide +kernel
  · decide +kernel

end DiscoveryClient
