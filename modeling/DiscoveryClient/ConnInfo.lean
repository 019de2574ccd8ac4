import DiscoveryClient.GoDecimal
import DiscoveryClient.GoMap

/-! The line in which the kernel names a new controller, and how `parseConnInfo` reads it. -/

namespace DiscoveryClient.Nvmeclient

open GoString ConnectRequest

/-- The bytes that `\w` stands for. -/
def isWord (b : UInt8) : Bool :=
  (0x30 ≤ b && b ≤ 0x39) || (0x41 ≤ b && b ≤ 0x5A) || b == 0x5F || (0x61 ≤ b && b ≤ 0x7A)

/-- The matches of `connPattern` in the rest of a text: behind `run`, the end of a word, or in the
value of a field, of which `run` has been read. -/
def matchesFrom : Option GoString → GoString → GoString → List (GoString × GoString)
  | none, _, [] => []
  | none, run, b :: s =>
    if isWord b then matchesFrom none (run ++ [b]) s
    else if b = 0x3D ∧ run ≠ [] then matchesFrom (some run) [] s
    else matchesFrom none [] s
  | some field, run, [] => if run = [] then [] else [(field, run)]
  | some field, run, b :: s =>
    if b = 0x2C then
      if run = [] then matchesFrom none [] s else (field, run) :: matchesFrom none [] s
    else matchesFrom (some field) (run ++ [b]) s

/-- `GetRepeatedParams` of `connPattern`. -/
def getRepeatedParams (input : GoString) : List (GoString × GoString) := matchesFrom none [] input

structure CtrlIdentifier where
  instanceID : Int := 0
  cntlid : Int := 0
  device : GoString := []
deriving DecidableEq, Repr

/-- The body of the loop of `parseConnInfo`. A number that cannot be parsed is left out. -/
def CtrlIdentifier.set (ctrlInfo : CtrlIdentifier) (param : GoString × GoString) : CtrlIdentifier :=
  let value := trimSpace param.2
  if param.1 = ascii "instance" then
    { ctrlInfo with instanceID := (parseInt 64 value).getD ctrlInfo.instanceID }
  else if param.1 = ascii "cntlid" then
    { ctrlInfo with cntlid := (parseInt 64 value).getD ctrlInfo.cntlid }
  else ctrlInfo

/-- `order` is the order in which the map of the matches is ranged over. -/
def parseConnInfo (order : RangeOrder (GoString × GoString)) (conn : GoString) : CtrlIdentifier :=
  let ctrlInfo := (order.order (getRepeatedParams (trimSpace conn))).foldl CtrlIdentifier.set {}
  { ctrlInfo with device := ascii "/dev/nvme" ++ formatInt ctrlInfo.instanceID }

/-- The line that names a controller, without its end; that the kernel has such a line for a new one
is assumed where it is used. -/
def connText (instanceID cntlid : Nat) : GoString :=
  ascii "instance=" ++ decimal instanceID ++ ascii ",cntlid=" ++ decimal cntlid

section Matches

theorem matchesFrom_word {w : GoString} (hw : ∀ b ∈ w, isWord b = true) (run s : GoString) :
    matchesFrom none run (w ++ s) = matchesFrom none (run ++ w) s := by
  induction w generalizing run with
  | nil => rw [List.nil_append, List.append_nil]
  | cons b w ih =>
    have hb := hw b List.mem_cons_self
    rw [List.cons_append, matchesFrom, if_pos hb,
      ih (fun b' hb' => hw b' (List.mem_cons_of_mem b hb')), List.append_assoc,
      List.singleton_append]

theorem matchesFrom_value {v : GoString} (hv : ∀ b ∈ v, b ≠ 0x2C) (field run s : GoString) :
    matchesFrom (some field) run (v ++ s) = matchesFrom (some field) (run ++ v) s := by
  induction v generalizing run with
  | nil => rw [List.nil_append, List.append_nil]
  | cons b v ih =>
    have hb := hv b List.mem_cons_self
    rw [List.cons_append, matchesFrom, if_neg hb,
      ih (fun b' hb' => hv b' (List.mem_cons_of_mem b hb')), List.append_assoc,
      List.singleton_append]

/-- A field with its value, up to the comma behind it. -/
theorem matchesFrom_field {field value : GoString} (hfield : ∀ b ∈ field, isWord b = true)
    (hne : field ≠ []) (hvalue : ∀ b ∈ value, b ≠ 0x2C) (s : GoString) :
    matchesFrom none [] (field ++ (ascii "=" ++ (value ++ s))) =
      matchesFrom (some field) value s := by
  have hequals : ascii "=" ++ (value ++ s) = 0x3D :: (value ++ s) := rfl
  rw [matchesFrom_word hfield, List.nil_append, hequals, matchesFrom, if_neg (by decide),
    if_pos ⟨rfl, hne⟩, matchesFrom_value hvalue, List.nil_append]

variable (m n : Nat)

theorem decimal_ne_comma {b : UInt8} (h : b ∈ decimal n) : b ≠ 0x2C := by
  rintro rfl
  have hdigit := (mem_decimal h).1
  simp at hdigit

theorem getRepeatedParams_connText :
    getRepeatedParams (connText m n) =
      [(ascii "instance", decimal m), (ascii "cntlid", decimal n)] := by
  have htext : connText m n = ascii "instance" ++ (ascii "=" ++ (decimal m ++
      (ascii "," ++ (ascii "cntlid" ++ (ascii "=" ++ (decimal n ++ [])))))) := by
    have hfirst : ascii "instance=" = ascii "instance" ++ ascii "=" := by decide
    have hsecond : ascii ",cntlid=" = ascii "," ++ (ascii "cntlid" ++ ascii "=") := by decide
    simp only [connText, hfirst, hsecond, List.append_assoc, List.append_nil]
  have hinstance : ∀ b ∈ ascii "instance", isWord b = true := by decide +kernel
  have hcntlid : ∀ b ∈ ascii "cntlid", isWord b = true := by decide +kernel
  have hcomma (s : GoString) : ascii "," ++ s = 0x2C :: s := rfl
  rw [htext, getRepeatedParams,
    matchesFrom_field hinstance (by decide) fun b => decimal_ne_comma m, hcomma, matchesFrom,
    if_pos rfl, if_neg (decimal_ne_nil m),
    matchesFrom_field hcntlid (by decide) fun b => decimal_ne_comma n, matchesFrom,
    if_neg (decimal_ne_nil n)]

end Matches

/-- Bytes that are neither space nor part of a longer rune. -/
def Plain (text : GoString) : Prop := ∀ b ∈ text, b.toNat < 0x80 ∧ isSpace b.toNat = false

instance (text : GoString) : Decidable (Plain text) :=
  inferInstanceAs (Decidable (∀ b ∈ text, b.toNat < 0x80 ∧ isSpace b.toNat = false))

section Plain

variable {text : GoString}

theorem Plain.append {front back : GoString} (hfront : Plain front) (hback : Plain back) :
    Plain (front ++ back) := by
  intro b hb
  rcases List.mem_append.mp hb with hb | hb
  · exact hfront b hb
  · exact hback b hb

theorem plain_decimal (n : Nat) : Plain (decimal n) := by
  intro b hb
  obtain ⟨hlo, hhi⟩ := mem_decimal hb
  refine ⟨by omega, ?_⟩
  simp only [isSpace, Bool.or_eq_false_iff, Bool.and_eq_false_iff, decide_eq_false_iff_not,
    beq_eq_false_iff_ne]
  omega

theorem Plain.runes_eq (plain : Plain text) : runes text = text.map ([·]) := by
  by_cases hne : text = []
  · subst hne
    rfl
  · have hrunes := runes_around_ascii (fun b hb => (plain b hb).1) hne [] []
    have hnil : GoString.runes ([] : GoString) = [] := rfl
    rwa [List.nil_append, hnil, List.nil_append, List.append_nil, List.append_nil] at hrunes

theorem Plain.not_space (plain : Plain text) :
    ∀ r ∈ text.map ([·]), isSpace (runeValue r) = false := by
  intro r hr
  obtain ⟨b, hb, rfl⟩ := List.mem_map.mp hr
  rw [runeValue_ascii (plain b hb).1]
  exact (plain b hb).2

/-- A line without spaces is left by `TrimSpace` without its end. -/
theorem Plain.trimSpace_line (plain : Plain text) (hne : text ≠ []) :
    trimSpace (text ++ ascii "\n") = text := by
  have hrunes := runes_around_ascii (fun b hb => (plain b hb).1) hne [] (ascii "\n")
  have hnil : runes ([] : GoString) = [] := rfl
  have hend : runes (ascii "\n") = [[0x0A]] := runes_singleton 0x0A
  rw [List.nil_append, hnil, List.nil_append, hend] at hrunes
  have hleft : (text.map ([·]) ++ [[0x0A]]).dropWhile (fun r => isSpace (runeValue r)) =
      text.map ([·]) ++ [[0x0A]] := by
    obtain ⟨b, rest, rfl⟩ := List.exists_cons_of_ne_nil hne
    have hb := plain.not_space [b] (by simp)
    rw [List.map_cons, List.cons_append, List.dropWhile_cons_of_neg (by simp [hb])]
  have hright : (text.map ([·])).rdropWhile (fun r => isSpace (runeValue r)) = text.map ([·]) := by
    rw [List.rdropWhile_eq_self_iff]
    intro hl
    rw [Bool.not_eq_true]
    exact plain.not_space _ (List.getLast_mem hl)
  have hspace : isSpace (runeValue [0x0A]) = true := by decide
  rw [trimSpace, hrunes, hleft, List.rdropWhile_concat_pos _ _ [0x0A] hspace, hright,
    ← plain.runes_eq, runes_flatten]

theorem Plain.trimSpace (plain : Plain text) : trimSpace text = text := by
  apply trimSpace_of_word
  rw [plain.runes_eq]
  exact plain.not_space

end Plain

theorem order_pair {α : Type} (r : RangeOrder α) (a b : α) :
    r.order [a, b] = [a, b] ∨ r.order [a, b] = [b, a] := by
  have hperm := r.perm [a, b]
  obtain ⟨x, y, horder⟩ := List.length_eq_two.mp hperm.length_eq
  rw [horder] at hperm ⊢
  have hx : x ∈ [a, b] := hperm.mem_iff.mp List.mem_cons_self
  rcases List.mem_pair.mp hx with rfl | rfl
  · rw [List.singleton_perm_singleton.mp hperm.cons_inv]
    exact Or.inl rfl
  · rw [List.singleton_perm_singleton.mp (hperm.trans (.swap x a [])).cons_inv]
    exact Or.inr rfl

theorem plain_connText (m n : Nat) : Plain (connText m n) := by
  have hfirst : Plain (ascii "instance=") := by decide +kernel
  have hsecond : Plain (ascii ",cntlid=") := by decide +kernel
  exact ((hfirst.append (plain_decimal m)).append hsecond).append (plain_decimal n)

theorem connText_ne_nil (m n : Nat) : connText m n ≠ [] := by
  simp [connText, decimal_ne_nil]

/-- What the kernel says of a new controller is read back, in whatever order the matches come. -/
theorem parseConnInfo_connText (order : RangeOrder (GoString × GoString)) {m n : Nat}
    (hm : m < 2147483648) (hn : n < 65536) :
    parseConnInfo order (connText m n) = ⟨m, n, ascii "/dev/nvme" ++ formatInt m⟩ := by
  have hfields : ascii "cntlid" ≠ ascii "instance" := by decide
  have hparse {k : Nat} (hk : k < 2147483648) : parseInt 64 (decimal k) = some (k : Int) :=
    parseInt_decimal (by omega)
  have hset : (order.order (getRepeatedParams (connText m n))).foldl CtrlIdentifier.set {} =
      ⟨m, n, []⟩ := by
    rw [getRepeatedParams_connText]
    rcases order_pair order (ascii "instance", decimal m) (ascii "cntlid", decimal n) with h | h <;>
      simp [h, CtrlIdentifier.set, hfields, (plain_decimal _).trimSpace, hparse hm,
        hparse (Nat.lt_trans hn (by decide))]
  rw [parseConnInfo, (plain_connText m n).trimSpace, hset]

end DiscoveryClient.Nvmeclient
