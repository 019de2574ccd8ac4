import DiscoveryClient.GoString

/-! The part of package `net` about the texts of IP addresses. -/

namespace GoIP

open GoString

/-- `net.IP`: 4 or 16 bytes where it is an address. -/
abbrev IP := List UInt8

def isDigit (b : UInt8) : Bool := 0x30 ≤ b && b ≤ 0x39

def isHexDigit (b : UInt8) : Bool :=
  isDigit b || (0x61 ≤ b && b ≤ 0x66) || (0x41 ≤ b && b ≤ 0x46)

def hexValue (b : UInt8) : Nat :=
  if isDigit b then b.toNat - 0x30
  else if 0x61 ≤ b then b.toNat - 0x61 + 10
  else b.toNat - 0x41 + 10

/-- A field of a dotted address. -/
def parseOctet (field : GoString) : Option UInt8 :=
  if 1 < field.length ∧ field.head? = some 0x30 then none
  else (parseDigits field).bind fun n => if n ≤ 255 then some (.ofNat n) else none

def parseIPv4Fields (s : GoString) : Option IP :=
  match s.splitOn 0x2E with
  | [a, b, c, d] => do
    let a ← parseOctet a
    let b ← parseOctet b
    let c ← parseOctet c
    let d ← parseOctet d
    return [a, b, c, d]
  | _ => none

def v4InV6Prefix : IP := List.replicate 10 0 ++ [0xff, 0xff]

def parseIPv4 (s : GoString) : Option IP := (parseIPv4Fields s).map (v4InV6Prefix ++ ·)

/-- The end of `parseIPv6`, when nothing of the text may be left: the ellipsis is filled up. -/
def expandEllipsis (ip : IP) (ellipsis : Option Nat) (s : GoString) : Option IP :=
  if s ≠ [] then none
  else if ip.length < 16 then
    ellipsis.map fun e => ip.take e ++ List.replicate (16 - ip.length) 0 ++ ip.drop e
  else if ellipsis.isSome then none
  else some ip

/-- The loop of `parseIPv6`, with room for `n` more groups behind those in `ip`. -/
def parseGroups : Nat → IP → Option Nat → GoString → Option IP
  | 0, ip, ellipsis, s => expandEllipsis ip ellipsis s
  | n + 1, ip, ellipsis, s =>
    let digits := s.takeWhile isHexDigit
    let acc := digits.foldl (fun acc b => 16 * acc + hexValue b) 0
    let ip' := ip ++ [.ofNat (acc / 256), .ofNat acc]
    if digits = [] ∨ 4 < digits.length then none
    else
      match s.dropWhile isHexDigit with
      | [] => expandEllipsis ip' ellipsis []
      | c :: rest =>
        -- A dot ends the first field of a dotted address.
        if c = 0x2E then
          if ellipsis = none ∧ ip.length ≠ 12 then none
          else if 16 < ip.length + 4 then none
          else (parseIPv4Fields s).bind fun fields => expandEllipsis (ip ++ fields) ellipsis []
        else if c ≠ 0x3A then none
        else
          match rest with
          | [] => none
          | d :: rest' =>
            if d = 0x3A then
              if ellipsis.isSome then none
              else if rest' = [] then expandEllipsis ip' (some ip'.length) []
              else parseGroups n ip' (some ip'.length) rest'
            else parseGroups n ip' ellipsis rest

/-- A text with a zone is not taken by `ParseIP`. -/
def parseIPv6 (s : GoString) : Option IP :=
  if 0x25 ∈ s then none
  else
    match s with
    | 0x3A :: 0x3A :: rest =>
      if rest = [] then some (List.replicate 16 0) else parseGroups 8 [] (some 0) rest
    | s => parseGroups 8 [] none s

/-- `net.ParseIP`; `none` is the nil address. -/
def parseIP (s : GoString) : Option IP :=
  match s.find? fun b => b == 0x2E || b == 0x3A || b == 0x25 with
  | some 0x2E => parseIPv4 s
  | some 0x3A => parseIPv6 s
  | _ => none

/-- `To4`; `none` is the nil address. -/
def to4 (ip : IP) : Option IP :=
  if ip.length = 4 then some ip
  else if ip.length = 16 ∧ ip.take 12 = v4InV6Prefix then some (ip.drop 12)
  else none

/-- `To16`; `none` is the nil address. -/
def to16 (ip : IP) : Option IP :=
  if ip.length = 4 then some (v4InV6Prefix ++ ip)
  else if ip.length = 16 then some ip
  else none

def numeral (base n : Nat) : GoString := (Nat.toDigits base n).map fun c => c.toNat.toUInt8

/-- The 16-bit groups of an address. -/
def groups : IP → List Nat
  | hi :: lo :: rest => (256 * hi.toNat + lo.toNat) :: groups rest
  | _ => []

/-- The first of the longest runs of at least two zero groups, from its start to its end. -/
def zeroRun (gs : List Nat) : Option (Nat × Nat) :=
  (List.range gs.length).foldl (fun best i =>
    let l := ((gs.drop i).takeWhile (· == 0)).length
    if 2 ≤ l ∧ (best.map fun r => r.2 - r.1).getD 0 < l then some (i, i + l) else best) none

def colons (gs : List Nat) : GoString := [0x3A].intercalate (gs.map (numeral 16))

/-- An address of 16 bytes in text, a run of zeros left out. -/
def string6 (ip : IP) : GoString :=
  match zeroRun (groups ip) with
  | none => colons (groups ip)
  | some (start, stop) =>
    colons ((groups ip).take start) ++ ascii "::" ++ colons ((groups ip).drop stop)

def hexString (ip : IP) : GoString :=
  ip.flatMap fun b => numeral 16 (b.toNat / 16) ++ numeral 16 (b.toNat % 16)

/-- `IP.String`. -/
def string (ip : IP) : GoString :=
  if ip = [] then ascii "<nil>"
  else if ip.length ≠ 4 ∧ ip.length ≠ 16 then ascii "?" ++ hexString ip
  else
    match to4 ip with
    | some p4 => [0x2E].intercalate (p4.map fun b => numeral 10 b.toNat)
    | none => string6 ip

/-- The bytes that occur in the text of an address. -/
def AddressByte (b : UInt8) : Prop := isHexDigit b = true ∨ b = 0x3A ∨ b = 0x2E

instance : DecidablePred AddressByte := fun _ => inferInstanceAs (Decidable (_ ∨ _ ∨ _))

theorem foldl_digits_none (s : GoString) :
    s.foldl (fun n b => n.bind fun n =>
      if 0x30 ≤ b && b ≤ 0x39 then some (10 * n + (b.toNat - 0x30)) else none) none = none := by
  induction s with
  | nil => rfl
  | cons b s ih => rw [List.foldl_cons, Option.bind_none, ih]

theorem isDigit_of_parseDigits {s : GoString} {n : Nat} (h : parseDigits s = some n) :
    ∀ b ∈ s, isDigit b = true := by
  have hfold : ∀ (s : GoString) (m n : Nat), s.foldl (fun n b => n.bind fun n =>
      if 0x30 ≤ b && b ≤ 0x39 then some (10 * n + (b.toNat - 0x30)) else none) (some m) = some n →
      ∀ b ∈ s, isDigit b = true := by
    intro s
    induction s with
    | nil => simp
    | cons c s ih =>
      intro m n h b hb
      rw [List.foldl_cons, Option.bind_some] at h
      split at h
      next hc =>
        rcases List.mem_cons.mp hb with rfl | hb
        · exact hc
        · exact ih _ n h b hb
      next => rw [foldl_digits_none] at h; cases h
  unfold parseDigits at h
  split at h
  next => cases h
  next => exact hfold s 0 n h

theorem addressByte_of_isDigit {b : UInt8} (h : isDigit b = true) : AddressByte b := by
  left
  rw [isHexDigit, h]
  rfl

theorem isDigit_of_parseOctet {field : GoString} {b : UInt8} (h : parseOctet field = some b) :
    ∀ c ∈ field, isDigit c = true := by
  unfold parseOctet at h
  split at h
  next => cases h
  next =>
    obtain ⟨n, hn, -⟩ := Option.bind_eq_some_iff.mp h
    exact isDigit_of_parseDigits hn

theorem byte_of_parseIPv4Fields {s : GoString} {ip : IP} (h : parseIPv4Fields s = some ip) :
    ∀ b ∈ s, isDigit b = true ∨ b = 0x2E := by
  unfold parseIPv4Fields at h
  split at h
  next a b c d hsplit =>
    obtain ⟨a', ha, h⟩ := Option.bind_eq_some_iff.mp h
    obtain ⟨b', hb, h⟩ := Option.bind_eq_some_iff.mp h
    obtain ⟨c', hc, h⟩ := Option.bind_eq_some_iff.mp h
    obtain ⟨d', hd, -⟩ := Option.bind_eq_some_iff.mp h
    have hjoin := @List.intercalate_splitOn _ s _ _ 0x2E
    rw [hsplit] at hjoin
    intro x hx
    rw [← hjoin] at hx
    simp only [List.intercalate, List.intersperse, List.flatten_cons, List.flatten_nil,
      List.mem_append, List.mem_singleton, List.append_nil] at hx
    rcases hx with hx | hx | hx | hx | hx | hx | hx
    · exact .inl (isDigit_of_parseOctet ha x hx)
    · exact .inr hx
    · exact .inl (isDigit_of_parseOctet hb x hx)
    · exact .inr hx
    · exact .inl (isDigit_of_parseOctet hc x hx)
    · exact .inr hx
    · exact .inl (isDigit_of_parseOctet hd x hx)
  next => cases h

theorem addressByte_of_parseIPv4Fields {s : GoString} {ip : IP} (h : parseIPv4Fields s = some ip) :
    ∀ b ∈ s, AddressByte b := by
  intro b hb
  rcases byte_of_parseIPv4Fields h b hb with hdigit | rfl
  · exact addressByte_of_isDigit hdigit
  · exact .inr (.inr rfl)

theorem eq_nil_of_expandEllipsis {ip ip' : IP} {ellipsis : Option Nat} {s : GoString}
    (h : expandEllipsis ip ellipsis s = some ip') : s = [] := by
  unfold expandEllipsis at h
  split at h
  next => cases h
  next hs => exact not_not.mp hs

/-- How the loop goes on behind a group: it ends there, with a dotted address or with an ellipsis
or nothing at all, or it takes the next group. -/
theorem parseGroups_succ {n : Nat} {ip ip' : IP} {ellipsis : Option Nat} {s : GoString}
    (h : parseGroups (n + 1) ip ellipsis s = some ip') :
    (∃ x y ellipsis', (∀ b ∈ s, AddressByte b) ∧
      expandEllipsis (ip ++ [x, y]) ellipsis' [] = some ip') ∨
    (∃ fields, parseIPv4Fields s = some fields ∧ ip.length + 4 ≤ 16 ∧
      expandEllipsis (ip ++ fields) ellipsis [] = some ip') ∨
    ∃ x y ellipsis' front rest, s = front ++ rest ∧ (∀ b ∈ front, AddressByte b) ∧
      parseGroups n (ip ++ [x, y]) ellipsis' rest = some ip' := by
  have hdigits : ∀ b ∈ s.takeWhile isHexDigit, AddressByte b :=
    fun b hb => .inl (List.mem_takeWhile_imp hb)
  have hcolon : AddressByte 0x3A := .inr (.inl rfl)
  have hs := (@List.takeWhile_append_dropWhile _ isHexDigit s).symm
  rw [parseGroups] at h
  split at h
  next => cases h
  next =>
    split at h
    next hdrop =>
      rw [hdrop, List.append_nil] at hs
      exact .inl ⟨_, _, ellipsis, hs ▸ hdigits, h⟩
    next c rest hdrop =>
      rw [hdrop] at hs
      split at h
      next =>
        split at h
        next => cases h
        next =>
          split at h
          next => cases h
          next hroom =>
            obtain ⟨fields, hfields, h⟩ := Option.bind_eq_some_iff.mp h
            exact .inr (.inl ⟨fields, hfields, Nat.not_lt.mp hroom, h⟩)
      next =>
        split at h
        next => cases h
        next hc =>
          cases not_not.mp hc
          split at h
          next => cases h
          next d rest' =>
            split at h
            next hd =>
              subst hd
              split at h
              next => cases h
              next =>
                split at h
                next hnil =>
                  refine .inl ⟨_, _, _, ?_, h⟩
                  rw [hs, hnil]
                  simpa [or_imp, forall_and, hcolon] using hdigits
                next =>
                  refine .inr (.inr ⟨_, _, _, s.takeWhile isHexDigit ++ [0x3A, 0x3A], rest',
                    by simpa using hs, ?_, h⟩)
                  simpa [or_imp, forall_and, hcolon] using hdigits
            next =>
              refine .inr (.inr ⟨_, _, _, s.takeWhile isHexDigit ++ [0x3A], d :: rest',
                by simpa using hs, ?_, h⟩)
              simpa [or_imp, forall_and, hcolon] using hdigits

theorem addressByte_of_parseGroups {n : Nat} {ip ip' : IP} {ellipsis : Option Nat} {s : GoString}
    (h : parseGroups n ip ellipsis s = some ip') : ∀ b ∈ s, AddressByte b := by
  induction n generalizing ip ellipsis s with
  | zero =>
    rw [eq_nil_of_expandEllipsis h]
    simp
  | succ n ih =>
    rcases parseGroups_succ h with ⟨x, y, ellipsis', hbytes, -⟩ | ⟨fields, hfields, -⟩ |
      ⟨x, y, ellipsis', front, rest, rfl, hfront, h⟩
    · exact hbytes
    · exact addressByte_of_parseIPv4Fields hfields
    · exact List.forall_mem_append.mpr ⟨hfront, ih h⟩

theorem addressByte_of_parseIP {s : GoString} {ip : IP} (h : parseIP s = some ip) :
    ∀ b ∈ s, AddressByte b := by
  unfold parseIP at h
  split at h
  next =>
    obtain ⟨fields, hfields, -⟩ := Option.map_eq_some_iff.mp h
    exact addressByte_of_parseIPv4Fields hfields
  next =>
    unfold parseIPv6 at h
    split at h
    next => cases h
    next =>
      split at h
      next rest =>
        have hcolon : AddressByte 0x3A := .inr (.inl rfl)
        split at h
        next hnil => simp [hnil, hcolon]
        next => simpa [hcolon] using addressByte_of_parseGroups h
      next => exact addressByte_of_parseGroups h
  next => cases h

theorem length_of_expandEllipsis {ip ip' : IP} {ellipsis : Option Nat} {s : GoString}
    (hlen : ip.length ≤ 16) (h : expandEllipsis ip ellipsis s = some ip') : ip'.length = 16 := by
  unfold expandEllipsis at h
  split at h
  next => cases h
  next =>
    split at h
    next hlt =>
      obtain ⟨e, -, rfl⟩ := Option.map_eq_some_iff.mp h
      simp only [List.length_append, List.length_take, List.length_replicate, List.length_drop]
      omega
    next hge =>
      split at h
      next => cases h
      next =>
        cases Option.some.inj h
        omega

theorem length_of_parseIPv4Fields {s : GoString} {ip : IP} (h : parseIPv4Fields s = some ip) :
    ip.length = 4 := by
  unfold parseIPv4Fields at h
  split at h
  next =>
    obtain ⟨a', -, h⟩ := Option.bind_eq_some_iff.mp h
    obtain ⟨b', -, h⟩ := Option.bind_eq_some_iff.mp h
    obtain ⟨c', -, h⟩ := Option.bind_eq_some_iff.mp h
    obtain ⟨d', -, h⟩ := Option.bind_eq_some_iff.mp h
    cases Option.some.inj h
    rfl
  next => cases h

theorem length_of_parseGroups {n : Nat} {ip ip' : IP} {ellipsis : Option Nat} {s : GoString}
    (hlen : ip.length + 2 * n ≤ 16) (h : parseGroups n ip ellipsis s = some ip') :
    ip'.length = 16 := by
  induction n generalizing ip ellipsis s with
  | zero => exact length_of_expandEllipsis hlen h
  | succ n ih =>
    rcases parseGroups_succ h with ⟨x, y, ellipsis', -, h⟩ | ⟨fields, hfields, hroom, h⟩ |
      ⟨x, y, ellipsis', front, rest, -, -, h⟩
    · apply length_of_expandEllipsis _ h
      rw [List.length_append, List.length_cons, List.length_singleton]
      omega
    · apply length_of_expandEllipsis _ h
      rw [List.length_append, length_of_parseIPv4Fields hfields]
      exact hroom
    · apply ih _ h
      rw [List.length_append, List.length_cons, List.length_singleton]
      omega

/-- `ParseIP` gives 16 bytes, also for a dotted address. -/
theorem length_of_parseIP {s : GoString} {ip : IP} (h : parseIP s = some ip) : ip.length = 16 := by
  unfold parseIP at h
  split at h
  next =>
    obtain ⟨fields, hfields, rfl⟩ := Option.map_eq_some_iff.mp h
    rw [List.length_append, length_of_parseIPv4Fields hfields]
    rfl
  next =>
    unfold parseIPv6 at h
    split at h
    next => cases h
    next =>
      split at h
      next =>
        split at h
        next =>
          cases Option.some.inj h
          rfl
        next => exact length_of_parseGroups (by decide) h
      next => exact length_of_parseGroups (by decide) h
  next => cases h

theorem isHexDigit_digitChar {d : Nat} (h : d < 16) :
    isHexDigit d.digitChar.toNat.toUInt8 = true := by
  have hall : ∀ d < 16, isHexDigit d.digitChar.toNat.toUInt8 = true := by decide
  exact hall d h

theorem isHexDigit_of_mem_numeral {base n : Nat} (hlo : 1 < base) (hhi : base ≤ 16) {b : UInt8}
    (h : b ∈ numeral base n) : isHexDigit b = true := by
  induction n using Nat.strong_induction_on with
  | _ n ih =>
    by_cases hlt : n < base
    · rw [numeral, Nat.toDigits_of_lt_base hlt, List.map_singleton, List.mem_singleton] at h
      rw [h]
      exact isHexDigit_digitChar (by omega)
    · have hmod := Nat.mod_lt n (show 0 < base by omega)
      rw [numeral, Nat.toDigits_of_base_le hlo (by omega), List.map_append, List.map_singleton,
        List.mem_append, List.mem_singleton] at h
      rcases h with h | rfl
      · exact ih (n / base) (Nat.div_lt_self (by omega) hlo) h
      · exact isHexDigit_digitChar (by omega)

theorem mem_intercalate {b sep : UInt8} {ls : List GoString} (h : b ∈ [sep].intercalate ls) :
    b = sep ∨ ∃ l ∈ ls, b ∈ l := by
  induction ls with
  | nil => cases h
  | cons l ls ih =>
    cases ls with
    | nil => exact .inr ⟨l, by simp, by simpa [List.intercalate] using h⟩
    | cons l' ls =>
      rw [List.intercalate_cons_cons, List.append_assoc, List.mem_append, List.mem_append,
        List.mem_singleton] at h
      rcases h with h | h | h
      · exact .inr ⟨l, by simp, h⟩
      · exact .inl h
      · rcases ih h with rfl | ⟨k, hk, hb⟩
        · exact .inl rfl
        · exact .inr ⟨k, List.mem_cons_of_mem l hk, hb⟩

theorem addressByte_of_mem_colons {gs : List Nat} {b : UInt8} (h : b ∈ colons gs) :
    AddressByte b := by
  rcases mem_intercalate h with rfl | ⟨l, hl, hb⟩
  · exact .inr (.inl rfl)
  · obtain ⟨n, -, rfl⟩ := List.mem_map.mp hl
    exact .inl (isHexDigit_of_mem_numeral (by omega) (by omega) hb)

theorem addressByte_of_mem_string6 {ip : IP} {b : UInt8} (h : b ∈ string6 ip) : AddressByte b := by
  unfold string6 at h
  split at h
  next => exact addressByte_of_mem_colons h
  next =>
    rw [List.mem_append, List.mem_append] at h
    rcases h with (h | h) | h
    · exact addressByte_of_mem_colons h
    · have hcolons : ∀ c ∈ ascii "::", AddressByte c := by decide +kernel
      exact hcolons b h
    · exact addressByte_of_mem_colons h

/-- An address in text has no comma, whatever its bytes are. -/
theorem comma_not_mem_string (ip : IP) : 0x2C ∉ string ip := by
  have hcomma : ¬ AddressByte 0x2C := by decide
  intro h
  unfold string at h
  split at h
  next => exact absurd h (by decide)
  next =>
    split at h
    next =>
      rw [List.mem_append, hexString, List.mem_flatMap] at h
      rcases h with h | ⟨b, -, h⟩
      · exact absurd h (by decide)
      · rcases List.mem_append.mp h with h | h
        · exact hcomma (.inl (isHexDigit_of_mem_numeral (by omega) (by omega) h))
        · exact hcomma (.inl (isHexDigit_of_mem_numeral (by omega) (by omega) h))
    next =>
      split at h
      next p4 _ =>
        rcases mem_intercalate h with h | ⟨l, hl, hb⟩
        · exact absurd h (by decide)
        · obtain ⟨b, -, rfl⟩ := List.mem_map.mp hl
          exact hcomma (.inl (isHexDigit_of_mem_numeral (by omega) (by omega) hb))
      next => exact hcomma (addressByte_of_mem_string6 h)

end GoIP
