import Mathlib.Data.List.Induction
import Mathlib.Order.Bounds.Basic
import PlainMath.Proofs.Symbol.Longest

/-! The look-up of signs against the entries of a dictionary. The sign that is found has the
greatest length of all signs with which the input starts, and its glyph is the one that was
entered last for it. The same comes out when the lengths are tried one by one, from that of the
longest sign of the table or that of the whole input downwards. -/
namespace PlainMath.Symbol

def lastGlyph? (entries : List (String × String)) (spelling : List Char) : Option String :=
  (entries.filter fun entry => entry.1.toList = spelling).getLast?.map (·.2)

/-- The lengths of the signs with which the input starts. Whatever is not made of letters only
is a sign. -/
def signLengths (entries : List (String × String)) (input : List Char) : Set Nat :=
  {length | ∃ entry ∈ entries, (¬ ∀ c ∈ entry.1.toList, c.isAlpha = true) ∧
    entry.1.toList <+: input ∧ entry.1.toList.length = length}

namespace Table
variable {table : Table} {entries : List (String × String)} {input : List Char} {glyph : String}
  {length : Nat}

def sign? (table : Table) (sign : List Char) : Option String :=
  (table.signs.filter fun entry => entry.1 = sign).getLast?.map (·.2)

theorem mem_signs_ofEntries {sign : List Char × String} :
    sign ∈ (ofEntries entries).signs ↔ ∃ entry ∈ entries,
      (¬ ∀ c ∈ entry.1.toList, c.isAlpha = true) ∧ (entry.1.toList, entry.2) = sign := by
  have other (text : List Char) :
      (!text.all isLetter) = true ↔ ¬ ∀ c ∈ text, c.isAlpha = true := by
    simp [isLetter]
  simp only [ofEntries, List.mem_filter, List.mem_map]
  constructor
  · rintro ⟨⟨entry, member, rfl⟩, sign⟩
    exact ⟨entry, member, (other _).mp sign, rfl⟩
  · rintro ⟨entry, member, sign, rfl⟩
    exact ⟨⟨entry, member, rfl⟩, (other _).mpr sign⟩

theorem mem_signLengths_iff :
    length ∈ signLengths entries input ↔
      ∃ sign ∈ (ofEntries entries).signs, sign.1 <+: input ∧ sign.1.length = length := by
  constructor
  · rintro ⟨entry, member, other, leads, size⟩
    exact ⟨_, mem_signs_ofEntries.mpr ⟨entry, member, other, rfl⟩, leads, size⟩
  · rintro ⟨sign, listed, leads, size⟩
    obtain ⟨entry, member, other, rfl⟩ := mem_signs_ofEntries.mp listed
    exact ⟨entry, member, other, leads, size⟩

theorem sign?_ofEntries {sign : List Char} (other : sign.all isLetter = false) :
    (ofEntries entries).sign? sign = lastGlyph? entries sign := by
  have kept : (ofEntries entries).signs.filter (fun entry => entry.1 = sign) =
      (entries.filter fun entry => entry.1.toList = sign).map fun entry =>
        (entry.1.toList, entry.2) := by
    simp only [ofEntries, List.filter_filter, List.filter_map, Function.comp_def]
    congr 1
    refine List.filter_congr fun entry _ => ?_
    by_cases same : entry.1.toList = sign
    · simp [same, other]
    · simp [same]
  rw [sign?, kept, lastGlyph?, List.getLast?_map, Option.map_map]
  rfl

theorem take_length_of_longestSign? (found : table.longestSign? input = some (glyph, length)) :
    (input.take length, glyph) ∈ table.signs ∧ (input.take length).length = length := by
  obtain ⟨sign, listed, rfl, rfl, leads⟩ := longestSign?_mem found
  rw [← List.prefix_iff_eq_take.mp leads]
  exact ⟨listed, rfl⟩

theorem sign?_of_longestSign? (found : table.longestSign? input = some (glyph, length)) :
    table.sign? (input.take length) = some glyph := by
  -- of equally long signs the later one is kept, so what is kept is the last of its spelling
  obtain ⟨words, signs⟩ := table
  -- over the signs that have been gone through, with the last one of them split off
  induction signs using List.reverseRecOn generalizing glyph length with
  | nil => cases found
  | append_singleton signs entry ih =>
    have size := (take_length_of_longestSign? found).2
    simp only [longestSign?, List.foldl_append, List.foldl_cons, List.foldl_nil] at found
    simp only [sign?, List.filter_append, List.getLast?_append]
    unfold longer at found
    split at found
    · rename_i taken
      cases found
      simp only [Bool.and_eq_true, List.isPrefixOf_iff_prefix] at taken
      simp [← List.prefix_iff_eq_take.mp taken.1]
    · rename_i passed
      have other : ¬ entry.1 = input.take length := by
        intro same
        refine passed ?_
        rw [found, same, size, Bool.and_eq_true, List.isPrefixOf_iff_prefix]
        exact ⟨List.take_prefix _ _, by simp⟩
      have kept : Table.sign? ⟨words, signs⟩ (input.take length) = some glyph := ih found
      simpa [other, sign?] using kept

theorem isGreatest_of_longestSign?
    (found : (ofEntries entries).longestSign? input = some (glyph, length)) :
    IsGreatest (signLengths entries input) length := by
  obtain ⟨listed, size⟩ := take_length_of_longestSign? found
  refine ⟨mem_signLengths_iff.mpr ⟨_, listed, List.take_prefix _ _, size⟩, fun other member => ?_⟩
  obtain ⟨sign, listed, leads, rfl⟩ := mem_signLengths_iff.mp member
  exact length_le_of_longestSign? found listed leads

theorem lastGlyph?_of_longestSign?
    (found : (ofEntries entries).longestSign? input = some (glyph, length)) :
    lastGlyph? entries (input.take length) = some glyph := by
  have sign : (input.take length).all isLetter = false := by
    simpa [ofEntries] using (List.mem_filter.mp (take_length_of_longestSign? found).1).2
  rw [← sign?_ofEntries sign]
  exact sign?_of_longestSign? found

theorem longestSign?_ofEntries_eq_none_iff :
    (ofEntries entries).longestSign? input = none ↔ signLengths entries input = ∅ := by
  constructor
  · intro unfound
    refine Set.eq_empty_of_forall_notMem fun length member => ?_
    obtain ⟨sign, listed, leads, _⟩ := mem_signLengths_iff.mp member
    have most : sign.1.length ≤ ((ofEntries entries).longestSign? input).elim 0 (·.2) :=
      (le_foldl_longer (ofEntries entries).signs none).2 sign listed leads
    rw [unfound] at most
    exact signs_ofEntries_ne_nil listed (List.length_eq_zero_iff.mp (Nat.le_zero.mp most))
  · intro empty
    refine Option.eq_none_iff_forall_ne_some.mpr fun best found => ?_
    have member := (isGreatest_of_longestSign? found).1
    rw [empty] at member
    exact member

theorem longestSign?_ofEntries_eq_some_iff :
    (ofEntries entries).longestSign? input = some (glyph, length) ↔
      IsGreatest (signLengths entries input) length ∧
        lastGlyph? entries (input.take length) = some glyph := by
  refine ⟨fun found => ⟨isGreatest_of_longestSign? found, lastGlyph?_of_longestSign? found⟩, ?_⟩
  rintro ⟨greatest, last⟩
  cases found : (ofEntries entries).longestSign? input with
  | none =>
    have member := greatest.1
    rw [longestSign?_ofEntries_eq_none_iff.mp found] at member
    cases member
  | some best =>
    obtain rfl := greatest.unique (isGreatest_of_longestSign? found)
    rw [Option.some.inj (last.symm.trans (lastGlyph?_of_longestSign? found))]

/-- The first hit among the starts of the input of the given length and of all smaller ones, the
longer ones first. -/
def searchDown (table : Table) (input : List Char) : Nat → Option (String × Nat)
  | 0 => none
  | length + 1 =>
    ((table.sign? (input.take (length + 1))).map (·, length + 1)).or
      (searchDown table input length)

theorem searchDown_eq_some {bound : Nat} (pos : 0 < length) (bounded : length ≤ bound)
    (here : table.sign? (input.take length) = some glyph)
    (unlisted : ∀ more, length < more → more ≤ bound → table.sign? (input.take more) = none) :
    table.searchDown input bound = some (glyph, length) := by
  induction bound with
  | zero => omega
  | succ bound ih =>
    rcases Nat.lt_or_eq_of_le bounded with less | rfl
    · rw [searchDown, unlisted (bound + 1) less (Nat.le_refl _), Option.map_none, Option.none_or]
      exact ih (by omega) fun more above below => unlisted more above (by omega)
    · rw [searchDown, here, Option.map_some, Option.some_or]

theorem searchDown_eq_none {bound : Nat}
    (unlisted : ∀ length ≤ bound, table.sign? (input.take length) = none) :
    table.searchDown input bound = none := by
  induction bound with
  | zero => rfl
  | succ bound ih =>
    rw [searchDown, unlisted _ (Nat.le_refl _), Option.map_none, Option.none_or]
    exact ih fun length below => unlisted length (by omega)

theorem length_le_maxSignLength {sign : List Char × String} (listed : sign ∈ table.signs) :
    sign.1.length ≤ table.maxSignLength := by
  have most (signs : List (List Char × String)) (start : Nat) :
      start ≤ signs.foldl (fun most entry => max most entry.1.length) start ∧
        ∀ sign ∈ signs,
          sign.1.length ≤ signs.foldl (fun most entry => max most entry.1.length) start := by
    induction signs generalizing start with
    | nil => exact ⟨Nat.le_refl _, by simp⟩
    | cons entry signs ih =>
      obtain ⟨later, rest⟩ := ih (max start entry.1.length)
      refine ⟨by rw [List.foldl_cons]; omega, fun sign member => ?_⟩
      rcases List.mem_cons.mp member with rfl | member
      · rw [List.foldl_cons]; omega
      · exact rest sign member
  exact (most table.signs 0).2 sign listed

theorem mem_signs_of_sign? {sign : List Char} (found : table.sign? sign = some glyph) :
    (sign, glyph) ∈ table.signs := by
  obtain ⟨entry, last, rfl⟩ := Option.map_eq_some_iff.mp found
  obtain ⟨listed, same⟩ := List.mem_filter.mp (List.mem_of_getLast? last)
  rwa [← of_decide_eq_true same]

theorem longestSign?_eq_searchDown (entries : List (String × String)) (input : List Char) :
    (ofEntries entries).longestSign? input = (ofEntries entries).searchDown input
      (min (ofEntries entries).maxSignLength input.length) := by
  -- longer starts than the longest sign are not looked for, since none of them is in the table
  have hit {glyph : String} {length : Nat} (bounded : length ≤ input.length)
      (here : (ofEntries entries).sign? (input.take length) = some glyph) :
      length ∈ signLengths entries input :=
    mem_signLengths_iff.mpr ⟨_, mem_signs_of_sign? here, List.take_prefix _ _,
      List.length_take_of_le bounded⟩
  cases found : (ofEntries entries).longestSign? input with
  | none =>
    have empty := longestSign?_ofEntries_eq_none_iff.mp found
    refine (searchDown_eq_none fun length bounded => ?_).symm
    refine Option.eq_none_iff_forall_ne_some.mpr fun glyph here => ?_
    have member := hit (by omega) here
    rw [empty] at member
    exact member
  | some best =>
    obtain ⟨pos, inside⟩ := longestSign?_ofEntries_bound found
    obtain ⟨listed, size⟩ := take_length_of_longestSign? found
    have short := length_le_maxSignLength listed
    rw [size] at short
    refine (searchDown_eq_some pos (Nat.le_min.mpr ⟨short, inside⟩)
      (sign?_of_longestSign? found) fun more above below => ?_).symm
    refine Option.eq_none_iff_forall_ne_some.mpr fun glyph here => ?_
    have most := (isGreatest_of_longestSign? found).2 (hit (by omega) here)
    omega

/-- A look-up in the table of any entries gives the greatest length of a sign with which the input
starts and the glyph that was entered last for it, and nothing exactly when there is no such sign.
Behind the sign anything may follow that does not make a longer one of it. It is the first hit when
starts of the input are looked up from the longest sign of the table down to a single character. -/
theorem longestSign?_greatest (entries : List (String × String)) (input : List Char) :
    (∀ glyph length, (ofEntries entries).longestSign? input = some (glyph, length) ↔
      IsGreatest (signLengths entries input) length ∧
        lastGlyph? entries (input.take length) = some glyph) ∧
    ((ofEntries entries).longestSign? input = none ↔ signLengths entries input = ∅) ∧
    (∀ glyph length, (ofEntries entries).longestSign? input = some (glyph, length) →
      ∀ behind, (ofEntries entries).longestSign? (input.take length ++ behind) =
          some (glyph, length) ↔
        length ∈ upperBounds (signLengths entries (input.take length ++ behind))) ∧
    (ofEntries entries).longestSign? input = (ofEntries entries).searchDown input
      (min (ofEntries entries).maxSignLength input.length) := by
  refine ⟨fun glyph length => longestSign?_ofEntries_eq_some_iff,
    longestSign?_ofEntries_eq_none_iff, fun glyph length found behind => ?_,
    longestSign?_eq_searchDown entries input⟩
  obtain ⟨listed, size⟩ := take_length_of_longestSign? found
  have last := lastGlyph?_of_longestSign? found
  have same : (input.take length ++ behind).take length = input.take length :=
    List.take_left' size
  have member : length ∈ signLengths entries (input.take length ++ behind) :=
    mem_signLengths_iff.mpr ⟨_, listed, List.prefix_append _ _, size⟩
  rw [longestSign?_ofEntries_eq_some_iff, same]
  exact ⟨fun known => known.1.2, fun most => ⟨⟨member, most⟩, last⟩⟩

end Table
end PlainMath.Symbol
