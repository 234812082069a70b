import PlainMath.Text.Split

/-! A text and the pieces into which a separator cuts it. The pieces with the separator
between them are the text again, none of them holds the separator, and a text that no
occurrence of the separator straddles can be cut in two parts. -/
namespace PlainMath.Text

theorem splitOn_ne_nil (separator text : List Char) : splitOn separator text ≠ [] := by
  unfold splitOn
  split
  · simp
  · split
    · simp
    · unfold consFirst
      split <;> simp

theorem join_cons {separator piece : List Char} {pieces : List (List Char)} (more : pieces ≠ []) :
    join separator (piece :: pieces) = piece ++ separator ++ join separator pieces := by
  cases pieces with
  | nil => exact absurd rfl more
  | cons next pieces => rfl

theorem join_consFirst {separator : List Char} {c : Char} {pieces : List (List Char)}
    (nonempty : pieces ≠ []) :
    join separator (consFirst c pieces) = c :: join separator pieces := by
  match pieces with
  | [] => exact absurd rfl nonempty
  | [_] => rfl
  | _ :: _ :: _ => rfl

section
variable {separator : List Char}

theorem splitOn_match (named : separator ≠ []) (behind : List Char) :
    splitOn separator (separator ++ behind) = [] :: splitOn separator behind := by
  obtain ⟨mark, key, rfl⟩ := List.exists_cons_of_ne_nil named
  rw [List.cons_append, splitOn, if_pos ⟨by simp, by simp [List.isPrefixOf_iff_prefix]⟩]
  simp

theorem splitOn_skip {c : Char} {rest : List Char} (other : ¬ separator <+: c :: rest) :
    splitOn separator (c :: rest) = consFirst c (splitOn separator rest) := by
  rw [splitOn, if_neg fun found => other (List.isPrefixOf_iff_prefix.mp found.2)]

theorem scan_induct (named : separator ≠ []) {P : List Char → Prop} (ended : P [])
    (found : ∀ behind, P behind → P (separator ++ behind))
    (other : ∀ c rest, ¬ separator <+: c :: rest → P rest → P (c :: rest)) (text : List Char) :
    P text := by
  -- an occurrence is stepped over as a whole, so the induction is on the length
  induction size : text.length using Nat.strongRecOn generalizing text with
  | ind length ih =>
    cases text with
    | nil => exact ended
    | cons c rest =>
      by_cases here : separator <+: c :: rest
      · obtain ⟨behind, whole⟩ := here
        have key := List.length_pos_iff.mpr named
        have shorter : behind.length < length := by
          rw [← size, ← whole, List.length_append]
          omega
        rw [← whole]
        exact found behind (ih _ shorter behind rfl)
      · exact other c rest here (ih _ (by rw [← size]; exact Nat.lt_succ_self _) rest rfl)

theorem join_splitOn (named : separator ≠ []) (text : List Char) :
    join separator (splitOn separator text) = text := by
  induction text using scan_induct named with
  | ended => rw [splitOn]; rfl
  | found behind ih =>
    rw [splitOn_match named, join_cons (splitOn_ne_nil _ _), ih, List.nil_append]
  | other c rest skip ih => rw [splitOn_skip skip, join_consFirst (splitOn_ne_nil _ _), ih]

def occurrences (key text : List Char) : Nat :=
  match text with
  | [] => 0
  | c :: rest =>
    if key ≠ [] ∧ key.isPrefixOf (c :: rest) then
      occurrences key (rest.drop (key.length - 1)) + 1
    else
      occurrences key rest
termination_by text.length
decreasing_by
  · simp only [List.length_drop, List.length_cons]; omega
  · simp

theorem occurrences_match (named : separator ≠ []) (behind : List Char) :
    occurrences separator (separator ++ behind) = occurrences separator behind + 1 := by
  obtain ⟨mark, key, rfl⟩ := List.exists_cons_of_ne_nil named
  rw [List.cons_append, occurrences, if_pos ⟨by simp, by simp [List.isPrefixOf_iff_prefix]⟩]
  simp

theorem occurrences_skip {c : Char} {rest : List Char} (other : ¬ separator <+: c :: rest) :
    occurrences separator (c :: rest) = occurrences separator rest := by
  rw [occurrences, if_neg fun found => other (List.isPrefixOf_iff_prefix.mp found.2)]

theorem exists_consFirst (c : Char) (separator text : List Char) : ∃ first others,
    splitOn separator text = first :: others ∧
      consFirst c (splitOn separator text) = (c :: first) :: others := by
  obtain ⟨first, others, cut⟩ := List.exists_cons_of_ne_nil (splitOn_ne_nil separator text)
  exact ⟨first, others, cut, by rw [cut]; rfl⟩

theorem length_splitOn (named : separator ≠ []) (text : List Char) :
    (splitOn separator text).length = occurrences separator text + 1 := by
  induction text using scan_induct named with
  | ended => rw [splitOn, occurrences]; rfl
  | found behind ih =>
    rw [splitOn_match named, occurrences_match named, List.length_cons, ih]
  | other c rest skip ih =>
    obtain ⟨first, others, cut, longer⟩ := exists_consFirst c separator rest
    rw [splitOn_skip skip, occurrences_skip skip, longer, ← ih, cut]
    rfl

theorem not_infix_of_mem_splitOn (named : separator ≠ []) {text piece : List Char}
    (listed : piece ∈ splitOn separator text) : ¬ separator <:+: piece := by
  induction text using scan_induct named generalizing piece with
  | ended =>
    rw [splitOn, List.mem_singleton] at listed
    rw [listed, List.infix_nil]
    exact named
  | found behind ih =>
    rw [splitOn_match named, List.mem_cons] at listed
    rcases listed with rfl | later
    · rw [List.infix_nil]
      exact named
    · exact ih later
  | other c rest skip ih =>
    obtain ⟨first, others, cut, longer⟩ := exists_consFirst c separator rest
    rw [splitOn_skip skip, longer, List.mem_cons] at listed
    rcases listed with rfl | later
    · -- the first piece begins the text, where the separator is not found
      have begins : first <+: rest := by
        rw [← join_splitOn named rest, cut]
        cases others with
        | nil => exact List.prefix_refl first
        | cons next others =>
          rw [join_cons (List.cons_ne_nil _ _), List.append_assoc]
          exact List.prefix_append _ _
      rw [List.infix_cons_iff, not_or]
      exact ⟨fun here => skip (here.trans ((List.prefix_cons_inj c).mpr begins)),
        ih (by rw [cut]; exact List.mem_cons_self)⟩
    · exact ih (by rw [cut]; exact List.mem_cons_of_mem _ later)

/-- Two lists of pieces, the last piece of the one and the first of the other made one. -/
def splice : List (List Char) → List (List Char) → List (List Char)
  | [], later => later
  | [piece], later => (piece ++ later.headD []) :: later.tail
  | piece :: next :: pieces, later => piece :: splice (next :: pieces) later

theorem splice_cons {piece : List Char} {pieces : List (List Char)} (more : pieces ≠ [])
    (later : List (List Char)) : splice (piece :: pieces) later = piece :: splice pieces later := by
  obtain ⟨next, others, rfl⟩ := List.exists_cons_of_ne_nil more
  rfl

theorem splice_consFirst (c : Char) {pieces later : List (List Char)} (nonempty : pieces ≠ []) :
    splice (consFirst c pieces) later = consFirst c (splice pieces later) := by
  obtain ⟨piece, others, rfl⟩ := List.exists_cons_of_ne_nil nonempty
  cases others <;> rfl

/-- Every occurrence of `key` that starts in `front` ends there, so that none goes across the seam
between `front` and `back`. -/
def Uncrossed (key front back : List Char) : Prop :=
  ∀ start < front.length, key <+: (front ++ back).drop start → start + key.length ≤ front.length

theorem splitOn_append (named : separator ≠ []) {front back : List Char}
    (apart : Uncrossed separator front back) : splitOn separator (front ++ back) =
      splice (splitOn separator front) (splitOn separator back) := by
  induction front using scan_induct named with
  | ended =>
    obtain ⟨first, others, cut⟩ := List.exists_cons_of_ne_nil (splitOn_ne_nil separator back)
    rw [List.nil_append, splitOn, cut]
    rfl
  | found behind ih =>
    have later : Uncrossed separator behind back := fun start inside here => by
      have shifted := apart (separator.length + start) (by simp; omega)
        (by rwa [List.append_assoc, List.drop_length_add_append])
      rw [List.length_append] at shifted
      omega
    rw [List.append_assoc, splitOn_match named, splitOn_match named, ih later,
      splice_cons (splitOn_ne_nil _ _)]
  | other c rest skip ih =>
    have later : Uncrossed separator rest back := fun start inside here => by
      have shifted := apart (start + 1) (Nat.succ_lt_succ inside) here
      rw [List.length_cons] at shifted
      omega
    have skip' : ¬ separator <+: c :: (rest ++ back) := fun here => by
      have inside := apart 0 (Nat.succ_pos _) here
      rw [Nat.zero_add] at inside
      exact skip (List.prefix_of_prefix_length_le here (List.prefix_append (c :: rest) back) inside)
    rw [List.cons_append, splitOn_skip skip', splitOn_skip skip, ih later,
      splice_consFirst c (splitOn_ne_nil _ _)]

end

theorem mem_of_mem_splitOn {separator text piece : List Char}
    (listed : piece ∈ splitOn separator text) : piece ⊆ text := by
  fun_induction splitOn separator text generalizing piece with
  | case1 => simp_all
  | case2 c rest found ih =>
    rcases List.mem_cons.mp listed with rfl | later
    · simp
    · exact fun d member => List.mem_cons_of_mem _ (List.mem_of_mem_drop (ih later member))
  | case3 c rest _ ih =>
    unfold consFirst at listed
    split at listed
    · simp_all
    · rename_i first others cut
      rcases List.mem_cons.mp listed with rfl | later
      · exact List.cons_subset_cons _ (ih (by simp [cut]))
      · exact fun d member => List.mem_cons_of_mem _ (ih (by simp [cut, later]) member)

theorem mem_join {separator : List Char} {pieces : List (List Char)} {c : Char}
    (member : c ∈ join separator pieces) : c ∈ separator ∨ ∃ piece ∈ pieces, c ∈ piece := by
  fun_induction join separator pieces with
  | case1 => cases member
  | case2 piece => exact .inr ⟨piece, List.mem_singleton_self piece, member⟩
  | case3 piece pieces _ ih =>
    rcases List.mem_append.mp member with front | behind
    · rcases List.mem_append.mp front with inside | between
      · exact .inr ⟨piece, List.mem_cons_self, inside⟩
      · exact .inl between
    · obtain between | ⟨later, listed, inside⟩ := ih behind
      · exact .inl between
      · exact .inr ⟨later, List.mem_cons_of_mem _ listed, inside⟩

theorem lines_append {line : List Char} (single : '\n' ∉ line) (rest : List Char) :
    lines (line ++ '\n' :: rest) = line :: lines rest := by
  unfold lines
  induction line with
  | nil =>
    rw [List.nil_append, splitOn, if_pos (by simp)]
    rfl
  | cons c line ih =>
    rw [List.mem_cons, not_or] at single
    rw [List.cons_append, splitOn, if_neg (by simp [single.1]), ih single.2]
    rfl

theorem lines_single {line : List Char} (single : '\n' ∉ line) : lines line = [line] := by
  unfold lines
  induction line with
  | nil => rw [splitOn]
  | cons c line ih =>
    rw [List.mem_cons, not_or] at single
    rw [splitOn, if_neg (by simp [single.1]), ih single.2]
    rfl

theorem lines_join {lines : List (List Char)} (shown : lines ≠ [])
    (single : ∀ line ∈ lines, '\n' ∉ line) : Text.lines (join ['\n'] lines) = lines := by
  induction lines with
  | nil => exact absurd rfl shown
  | cons line more ih =>
    obtain ⟨here, later⟩ := List.forall_mem_cons.mp single
    cases more with
    | nil => exact lines_single here
    | cons next more =>
      have spelled : join ['\n'] (line :: next :: more) =
          line ++ '\n' :: join ['\n'] (next :: more) := by simp [join]
      rw [spelled, lines_append here, ih (by simp) later]

theorem not_mem_of_mem_lines {text line : List Char} (listed : line ∈ lines text) : '\n' ∉ line := by
  intro member
  obtain ⟨front, back, cut⟩ := List.append_of_mem member
  exact not_infix_of_mem_splitOn (List.cons_ne_nil _ _) listed ⟨front, back, by simp [cut]⟩

theorem lines_flatMap {lines : List (List Char)} (single : ∀ line ∈ lines, '\n' ∉ line) :
    Text.lines (lines.flatMap (· ++ ['\n'])) = lines ++ [[]] := by
  induction lines with
  | nil => exact lines_single List.not_mem_nil
  | cons line more ih =>
    obtain ⟨here, later⟩ := List.forall_mem_cons.mp single
    rw [List.flatMap_cons, List.append_assoc, List.singleton_append, lines_append here, ih later,
      List.cons_append]

end PlainMath.Text
