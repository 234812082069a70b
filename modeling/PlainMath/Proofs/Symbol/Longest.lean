import PlainMath.Symbol.Dictionary

/-! What a look-up gives: a word is an entry of the table, and the longest sign is
an entry with which the input starts while no longer one does. -/
namespace PlainMath.Symbol.Table

variable {input : List Char}

theorem foldl_longer_mem (entries : List (List Char × String)) (best : Option (String × Nat))
    {glyph : String} {length : Nat}
    (found : entries.foldl (longer input) best = some (glyph, length)) :
    best = some (glyph, length) ∨
      ∃ sign ∈ entries, sign.2 = glyph ∧ sign.1.length = length ∧ sign.1 <+: input := by
  induction entries generalizing best with
  | nil => exact .inl found
  | cons entry entries ih =>
    rcases ih (longer input best entry) found with kept | ⟨sign, member, parts⟩
    · unfold longer at kept
      split at kept
      · rename_i taken
        cases kept
        simp only [Bool.and_eq_true, List.isPrefixOf_iff_prefix] at taken
        exact .inr ⟨entry, by simp, rfl, rfl, taken.1⟩
      · exact .inl kept
    · exact .inr ⟨sign, by simp [member], parts⟩

theorem le_longer (best : Option (String × Nat)) (entry : List Char × String) :
    best.elim 0 (·.2) ≤ (longer input best entry).elim 0 (·.2) := by
  unfold longer
  split
  · rename_i taken
    simp only [Bool.and_eq_true, decide_eq_true_eq] at taken
    exact taken.2
  · exact Nat.le_refl _

theorem length_le_longer (best : Option (String × Nat)) {entry : List Char × String}
    (leads : entry.1 <+: input) : entry.1.length ≤ (longer input best entry).elim 0 (·.2) := by
  unfold longer
  rw [List.isPrefixOf_iff_prefix.mpr leads, Bool.true_and]
  split
  · exact Nat.le_refl _
  · rename_i shorter
    simp only [decide_eq_true_eq] at shorter
    omega

theorem le_foldl_longer (entries : List (List Char × String)) (best : Option (String × Nat)) :
    best.elim 0 (·.2) ≤ (entries.foldl (longer input) best).elim 0 (·.2) ∧
      ∀ sign ∈ entries, sign.1 <+: input →
        sign.1.length ≤ (entries.foldl (longer input) best).elim 0 (·.2) := by
  induction entries generalizing best with
  | nil => exact ⟨Nat.le_refl _, by simp⟩
  | cons entry entries ih =>
    obtain ⟨later, rest⟩ := ih (longer input best entry)
    refine ⟨Nat.le_trans (le_longer best entry) later, fun sign member leads => ?_⟩
    rcases List.mem_cons.mp member with rfl | member
    · exact Nat.le_trans (length_le_longer best leads) later
    · exact rest sign member leads

theorem longestSign?_mem {table : Table} {glyph : String} {length : Nat}
    (found : table.longestSign? input = some (glyph, length)) :
    ∃ sign ∈ table.signs, sign.2 = glyph ∧ sign.1.length = length ∧ sign.1 <+: input := by
  rcases foldl_longer_mem table.signs none found with fresh | sign
  · cases fresh
  · exact sign

theorem length_le_of_longestSign? {table : Table} {glyph : String} {length : Nat}
    (found : table.longestSign? input = some (glyph, length)) {sign : List Char × String}
    (member : sign ∈ table.signs) (leads : sign.1 <+: input) : sign.1.length ≤ length := by
  have most : sign.1.length ≤ (table.longestSign? input).elim 0 (·.2) :=
    (le_foldl_longer table.signs none).2 sign member leads
  rwa [found] at most

theorem longestSign?_eq_some {table : Table} {sign : List Char × String}
    (listed : sign ∈ table.signs) (spelled : sign.1 ≠ []) (leads : sign.1 <+: input)
    (only : ∀ other ∈ table.signs, other.1 <+: input → other = sign) :
    table.longestSign? input = some (sign.2, sign.1.length) := by
  have most : sign.1.length ≤ (table.longestSign? input).elim 0 (·.2) :=
    (le_foldl_longer table.signs none).2 sign listed leads
  cases found : table.longestSign? input with
  | none =>
    rw [found] at most
    exact absurd (List.length_eq_zero_iff.mp (Nat.le_zero.mp most)) spelled
  | some best =>
    obtain ⟨other, member, glyph, length, leads'⟩ := longestSign?_mem found
    rw [only other member leads'] at glyph length
    rw [glyph, length]

theorem word?_mem {table : Table} {word : List Char} {glyph : String}
    (found : table.word? word = some glyph) : (word, glyph) ∈ table.words := by
  have last (entries : List (List Char × String)) (best : Option String)
      (found : entries.foldl (fun found entry => if entry.1 = word then some entry.2 else found)
        best = some glyph) : best = some glyph ∨ (word, glyph) ∈ entries := by
    induction entries generalizing best with
    | nil => exact .inl found
    | cons entry entries ih =>
      rcases ih _ found with kept | member
      · dsimp only at kept
        split at kept
        · rename_i same
          cases kept
          exact .inr (by simp [← same])
        · exact .inl kept
      · exact .inr (by simp [member])
  rcases last table.words none found with fresh | member
  · cases fresh
  · exact member

theorem entry_of_mem_words {entries : List (String × String)} {word : List Char × String}
    (member : word ∈ (ofEntries entries).words) :
    ∃ entry ∈ entries, entry.1.toList = word.1 ∧ entry.2 = word.2 := by
  obtain ⟨listed, _⟩ := List.mem_filter.mp member
  obtain ⟨entry, known, rfl⟩ := List.mem_map.mp listed
  exact ⟨entry, known, rfl, rfl⟩

theorem entry_of_mem_signs {entries : List (String × String)} {sign : List Char × String}
    (member : sign ∈ (ofEntries entries).signs) :
    ∃ entry ∈ entries, entry.1.toList = sign.1 ∧ entry.2 = sign.2 := by
  obtain ⟨listed, _⟩ := List.mem_filter.mp member
  obtain ⟨entry, known, rfl⟩ := List.mem_map.mp listed
  exact ⟨entry, known, rfl, rfl⟩

end PlainMath.Symbol.Table
