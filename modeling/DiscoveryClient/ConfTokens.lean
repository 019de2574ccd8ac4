import DiscoveryClient.GoFields
import DiscoveryClient.ParserTotal

namespace DiscoveryClient

open GoString

theorem split_replacement : splitSpacesAndEqualSign 0xFFFD = false := by decide

theorem split_of_isSpace {c : Nat} (h : isSpace c = true) : splitSpacesAndEqualSign c = true := by
  simp [splitSpacesAndEqualSign, h]

/-- White space and `=`, what separates the tokens of a line. -/
abbrev Separator (w : GoString) : Prop := Gap splitSpacesAndEqualSign w

/-- What can stand as a token of a line: no white space, no `=` and no `#`. -/
def Token (t : GoString) : Prop := Word splitSpacesAndEqualSign t ∧ 0x23 ∉ t

instance (t : GoString) : Decidable (Token t) := by
  unfold Token
  infer_instance

theorem Token.trimSpace_eq {t : GoString} (token : Token t) : trimSpace t = t := by
  apply trimSpace_of_word
  intro r hr
  have hsplit := token.1.2 r hr
  simp only [splitSpacesAndEqualSign, Bool.or_eq_false_iff] at hsplit
  exact hsplit.1

theorem Separator.hash_not_mem {w : GoString} (sep : Separator w) : 0x23 ∉ w :=
  Gap.not_mem sep (by decide) (by decide)

section Hashtag

variable {s w comment : GoString}

theorem trimStringFromHashtag_of_not_mem (h : 0x23 ∉ s) (comment : GoString)
    (hcomment : ∀ b ∈ comment.head?, b = 0x23) : trimStringFromHashtag (s ++ comment) = s := by
  have hs : ∀ b ∈ s, decide (b ≠ 0x23) = true := by
    intro b hb
    simp only [ne_eq, decide_eq_true_eq]
    rintro rfl
    exact h hb
  rw [trimStringFromHashtag, List.takeWhile_append_of_pos hs]
  cases comment with
  | nil => simp
  | cons b comment =>
    have hb := hcomment b rfl
    simp [hb]

/-- A line is the text before its comment and the comment. -/
theorem hashtag_split (s : GoString) :
    0x23 ∉ trimStringFromHashtag s ∧
      ∃ comment, s = trimStringFromHashtag s ++ comment ∧ ∀ b ∈ comment.head?, b = 0x23 := by
  refine ⟨?_, s.dropWhile (· ≠ 0x23), ?_, ?_⟩
  · intro h
    have hne := List.mem_takeWhile_imp h
    simp at hne
  · rw [trimStringFromHashtag, List.takeWhile_append_dropWhile]
  · intro b hb
    have hhead := @List.head?_dropWhile_not _ (fun b : UInt8 => decide (b ≠ 0x23)) s
    rw [Option.mem_def] at hb
    rw [hb] at hhead
    simpa using hhead

/-- White space behind a line changes none of its tokens, whether it stands in the comment or
before it. -/
theorem fields_hashtag_append (sep : Separator w) (s : GoString) :
    fieldsFunc splitSpacesAndEqualSign (trimStringFromHashtag (s ++ w)) =
      fieldsFunc splitSpacesAndEqualSign (trimStringFromHashtag s) := by
  obtain ⟨hbody, comment, hs, hcomment⟩ := hashtag_split s
  generalize trimStringFromHashtag s = body at hbody hs ⊢
  subst hs
  cases comment with
  | nil =>
    have hnot : 0x23 ∉ body ++ w := by
      rw [List.mem_append]
      rintro (h | h)
      · exact hbody h
      · exact Separator.hash_not_mem sep h
    have htrim := trimStringFromHashtag_of_not_mem hnot [] (by simp)
    rw [List.append_nil] at htrim
    rw [List.append_nil, htrim, fieldsFunc_gap_right sep split_replacement]
  | cons b comment =>
    rw [List.append_assoc, trimStringFromHashtag_of_not_mem hbody _ (by simpa using hcomment)]

theorem fields_hashtag_prepend (sep : Separator w) (s : GoString) :
    fieldsFunc splitSpacesAndEqualSign (trimStringFromHashtag (w ++ s)) =
      fieldsFunc splitSpacesAndEqualSign (trimStringFromHashtag s) := by
  obtain ⟨hbody, comment, hs, hcomment⟩ := hashtag_split s
  generalize trimStringFromHashtag s = body at hbody hs ⊢
  subst hs
  have hnot : 0x23 ∉ w ++ body := by
    rw [List.mem_append]
    rintro (h | h)
    · exact Separator.hash_not_mem sep h
    · exact hbody h
  rw [← List.append_assoc, trimStringFromHashtag_of_not_mem hnot comment hcomment,
    fieldsFunc_gap_left sep split_replacement]

end Hashtag

theorem separator_of_space {w : GoString} (gap : Gap isSpace w) : Separator w :=
  gap.mono fun _ => split_of_isSpace

theorem dropCR_split (line : GoString) : ∃ w, Separator w ∧ line = dropCR line ++ w := by
  unfold dropCR
  split
  next h =>
    refine ⟨[0x0D], by decide, ?_⟩
    obtain ⟨line, rfl⟩ := List.getLast?_eq_some_iff.mp h
    rw [List.dropLast_concat]
  next => exact ⟨[], Gap.nil, (List.append_nil line).symm⟩

/-- Neither the carriage return nor the trimming matters to the tokens of a line. -/
theorem lineTokens_eq (line : GoString) :
    lineTokens line = fieldsFunc splitSpacesAndEqualSign (trimStringFromHashtag line) := by
  obtain ⟨w, hw, hline⟩ := dropCR_split line
  obtain ⟨front, back, hfront, hback, htrim⟩ := trimSpace_split (dropCR line)
  unfold lineTokens
  generalize trimSpace (dropCR line) = text at htrim ⊢
  rw [hline, fields_hashtag_append hw, htrim, fields_hashtag_prepend (separator_of_space hfront),
    fields_hashtag_append (separator_of_space hback)]

theorem token_of_mem_lineTokens {line t : GoString} (h : t ∈ lineTokens line) : Token t := by
  rw [lineTokens_eq] at h
  obtain ⟨word, hmem⟩ := word_of_mem_fieldsFunc h
  exact ⟨word, fun hhash => (hashtag_split line).1 (hmem _ hhash)⟩

end DiscoveryClient
