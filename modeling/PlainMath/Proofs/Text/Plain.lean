import PlainMath.Proofs.Text.Pieces
import PlainMath.Text.Escape

/-! Text that can stand between tags: no angle brackets, and every ampersand opens
a complete reference. -/
namespace PlainMath.Text

def Ordinary (c : Char) : Prop := c ≠ '<' ∧ c ≠ '>' ∧ c ≠ '&'

instance : DecidablePred Ordinary := fun c =>
  inferInstanceAs (Decidable (c ≠ '<' ∧ c ≠ '>' ∧ c ≠ '&'))

inductive Plain : List Char → Prop
  | nil : Plain []
  | char {c : Char} {rest : List Char} : Ordinary c → Plain rest → Plain (c :: rest)
  | reference {name rest : List Char} : name ≠ [] → (∀ c ∈ name, c.isAlphanum = true) →
      Plain rest → Plain ('&' :: (name ++ ';' :: rest))

/-- Reads plain text. Inside a reference, the argument tells whether its name has begun. -/
def isPlain : Option Bool → List Char → Bool
  | none, [] => true
  | some _, [] => false
  | none, c :: rest =>
    if c = '&' then isPlain (some false) rest else c ≠ '<' && c ≠ '>' && isPlain none rest
  | some begun, c :: rest =>
    if c = ';' then begun && isPlain none rest else c.isAlphanum && isPlain (some true) rest

theorem plain_and_reference_of_isPlain (text : List Char) :
    (isPlain none text → Plain text) ∧
      ∀ begun, isPlain (some begun) text →
        ∃ name rest, text = name ++ ';' :: rest ∧ (begun = true ∨ name ≠ []) ∧
          (∀ c ∈ name, c.isAlphanum = true) ∧ Plain rest := by
  induction text with
  | nil => exact ⟨fun _ => .nil, fun _ => nofun⟩
  | cons c rest ih =>
    constructor
    · intro accepted
      simp only [isPlain] at accepted
      by_cases opens : c = '&'
      · rw [if_pos opens] at accepted
        obtain ⟨name, behind, rfl, named, letters, plain⟩ := ih.2 false accepted
        rw [opens]
        exact .reference (by simpa using named) letters plain
      · rw [if_neg opens] at accepted
        simp only [Bool.and_eq_true, decide_eq_true_eq] at accepted
        exact .char ⟨accepted.1.1, accepted.1.2, opens⟩ (ih.1 accepted.2)
    · intro begun accepted
      simp only [isPlain] at accepted
      by_cases ends : c = ';'
      · rw [if_pos ends, Bool.and_eq_true] at accepted
        exact ⟨[], rest, by simp [ends], .inl accepted.1, by simp, ih.1 accepted.2⟩
      · rw [if_neg ends, Bool.and_eq_true] at accepted
        obtain ⟨name, behind, rfl, _, letters, plain⟩ := ih.2 true accepted.2
        refine ⟨c :: name, behind, rfl, .inr (by simp), ?_, plain⟩
        exact List.forall_mem_cons.mpr ⟨accepted.1, letters⟩

theorem plain_of_isPlain {text : List Char} (accepted : isPlain none text) : Plain text :=
  (plain_and_reference_of_isPlain text).1 accepted

theorem Plain.append {first second : List Char} (left : Plain first) (right : Plain second) :
    Plain (first ++ second) := by
  induction left with
  | nil => exact right
  | char ordinary _ ih => exact .char ordinary ih
  | reference named letters _ ih =>
    rw [List.cons_append, List.append_assoc, List.cons_append]
    exact .reference named letters ih

theorem plain_flatMap {α : Type} {f : α → List Char} {items : List α}
    (all : ∀ item ∈ items, Plain (f item)) : Plain (items.flatMap f) := by
  induction items with
  | nil => exact .nil
  | cons item items ih =>
    obtain ⟨first, rest⟩ := List.forall_mem_cons.mp all
    exact first.append (ih rest)

theorem plain_of_ordinary {text : List Char} (all : ∀ c ∈ text, Ordinary c) : Plain text := by
  induction text with
  | nil => exact .nil
  | cons c text ih =>
    obtain ⟨first, rest⟩ := List.forall_mem_cons.mp all
    exact .char first (ih rest)

theorem plain_escapeChar (c : Char) : Plain (escapeChar c) := by
  unfold escapeChar
  split
  · exact plain_of_isPlain (by decide)
  · exact plain_of_isPlain (by decide)
  · exact plain_of_isPlain (by decide)
  · rename_i amp less more
    exact .char ⟨less, more, amp⟩ .nil

theorem plain_escape (raw : List Char) : Plain (escape raw).toList := by
  rw [escape, String.toList_ofList]
  exact plain_flatMap fun c _ => plain_escapeChar c

variable {mark : Char} {old new : List Char}

theorem replaceAll_match (rest : List Char) :
    replaceAll (mark :: old) new (mark :: old ++ rest) = new ++ replaceAll (mark :: old) new rest := by
  unfold replaceAll
  rw [splitOn_match (List.cons_ne_nil _ _), join_cons (splitOn_ne_nil _ _), List.nil_append]

theorem replaceAll_skip {c : Char} {rest : List Char} (other : ¬ (mark :: old) <+: (c :: rest)) :
    replaceAll (mark :: old) new (c :: rest) = c :: replaceAll (mark :: old) new rest := by
  unfold replaceAll
  rw [splitOn_skip other, join_consFirst (splitOn_ne_nil _ _)]

theorem replaceAll_append {front : List Char} (free : mark ∉ front) (rest : List Char) :
    replaceAll (mark :: old) new (front ++ rest) = front ++ replaceAll (mark :: old) new rest := by
  induction front with
  | nil => rfl
  | cons c front ih =>
    rw [List.mem_cons, not_or] at free
    rw [List.cons_append, replaceAll_skip, ih free.2, List.cons_append]
    rintro ⟨behind, same⟩
    exact free.1 (List.cons.inj same).1

theorem Plain.drop {front rest : List Char} (ordinary : ∀ c ∈ front, Ordinary c)
    (plain : Plain (front ++ rest)) : Plain rest := by
  induction front with
  | nil => exact plain
  | cons c front ih =>
    obtain ⟨first, others⟩ := List.forall_mem_cons.mp ordinary
    rw [List.cons_append] at plain
    generalize whole : c :: (front ++ rest) = text at plain
    cases plain with
    | nil => cases whole
    | char _ plain => exact ih others ((List.cons.inj whole).2 ▸ plain)
    | reference => exact absurd (List.cons.inj whole).1 first.2.2

theorem replaceAll_nil : replaceAll old new [] = [] := by
  unfold replaceAll
  rw [splitOn]
  rfl

theorem plain_replaceAll {text : List Char} (outside : mark.isAlphanum = false)
    (apart : mark ≠ '&' ∧ mark ≠ ';') (ordinary_old : ∀ c ∈ old, Ordinary c) (plain_new : Plain new)
    (plain : Plain text) : Plain (replaceAll (mark :: old) new text) := by
  -- a match takes several characters at once, so the induction is on the length
  induction size : text.length using Nat.strongRecOn generalizing text with
  | ind length ih =>
    cases plain with
    | nil =>
      rw [replaceAll_nil]
      exact .nil
    | @char c rest ordinary plain =>
      by_cases found : (mark :: old) <+: (c :: rest)
      · obtain ⟨behind, same⟩ := found
        have shorter : behind.length < length := by
          rw [← size, ← same]
          simp only [List.length_append, List.length_cons]
          omega
        obtain ⟨_, same'⟩ := List.cons.inj same
        rw [← same, replaceAll_match]
        exact plain_new.append (ih _ shorter ((same' ▸ plain).drop ordinary_old) rfl)
      · rw [replaceAll_skip found]
        refine .char ordinary (ih rest.length ?_ plain rfl)
        rw [← size, List.length_cons]
        exact Nat.lt_succ_self _
    | @reference name rest named letters plain =>
      have free : mark ∉ '&' :: (name ++ [';']) := by
        intro member
        simp only [List.mem_cons, List.mem_append, List.not_mem_nil, or_false] at member
        rcases member with amp | inside | ends
        · exact apart.1 amp
        · rw [letters mark inside] at outside
          cases outside
        · exact apart.2 ends
      have cut : '&' :: (name ++ ';' :: rest) = '&' :: (name ++ [';']) ++ rest := by simp
      have shorter : rest.length < length := by
        rw [← size, cut, List.length_append, List.length_cons]
        omega
      have kept := Plain.reference named letters (ih _ shorter plain rfl)
      rw [cut, replaceAll_append free]
      simpa using kept

end PlainMath.Text
