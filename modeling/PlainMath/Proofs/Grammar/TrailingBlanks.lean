import Mathlib.Data.List.Basic
import Mathlib.Data.List.Induction
import Mathlib.Data.List.TakeWhile
import PlainMath.Proofs.Grammar.Accounting

/-! Blanks at the end of a text are invisible. Two cursors whose inputs differ only in the blanks
at the end read the same trees, whatever brackets are open and wherever the rules come to a stop.
Quotes are left out, since an open one takes in everything up to the end. -/
namespace PlainMath

def Blanks (text : List Char) : Prop := ∀ c ∈ text, c = ' '

def Unquoted (text : List Char) : Prop := '\x22' ∉ text ∧ '\x27' ∉ text

structure Solid (text : List Char) : Prop where
  unquoted : Unquoted text
  last : ∀ c ∈ text.getLast?, c ≠ ' '

theorem Blanks.suffix {text rest : List Char} (blank : Blanks text) (ends : rest <:+ text) :
    Blanks rest :=
  fun c member => blank c (ends.subset member)

theorem Solid.suffix {text rest : List Char} (solid : Solid text) (ends : rest <:+ text) :
    Solid rest := by
  refine ⟨⟨fun found => solid.unquoted.1 (ends.subset found),
    fun found => solid.unquoted.2 (ends.subset found)⟩, ?_⟩
  obtain ⟨front, rfl⟩ := ends
  intro c last
  exact solid.last c (by simpa [List.getLast?_append] using .inl last)

theorem Solid.not_blanks {text : List Char} (solid : Solid text) (more : text ≠ []) :
    ¬ Blanks text := by
  intro blank
  have last := List.getLast?_eq_some_getLast more
  exact solid.last _ last (blank _ (List.getLast_mem more))

theorem exists_solid_append_blanks {text : List Char} (free : Unquoted text) :
    ∃ core blanks, text = core ++ blanks ∧ Solid core ∧ Blanks blanks := by
  induction text using List.reverseRecOn with
  | nil => exact ⟨[], [], rfl, ⟨free, by simp⟩, by simp [Blanks]⟩
  | append_singleton front c ih =>
    by_cases blank : c = ' '
    · obtain ⟨core, blanks, rfl, solid, blankTail⟩ :=
        ih ⟨fun found => free.1 (by simp [found]), fun found => free.2 (by simp [found])⟩
      exact ⟨core, blanks ++ [c], by simp, solid, by
        simpa [Blanks, or_imp, forall_and, blank] using blankTail⟩
    · exact ⟨front ++ [c], [], by simp, ⟨free, by simpa using blank⟩, by simp [Blanks]⟩

theorem prefix_of_append {key text behind : List Char} (absent : ∀ c ∈ behind.head?, c ∉ key)
    (leads : key <+: text ++ behind) : key <+: text := by
  rcases Nat.le_total key.length text.length with short | long
  · exact List.prefix_of_prefix_length_le leads (List.prefix_append _ _) short
  · obtain ⟨more, rfl⟩ := List.prefix_of_prefix_length_le (List.prefix_append _ _) leads long
    rw [List.prefix_append_right_inj] at leads
    cases more with
    | nil => simp
    | cons c more =>
      obtain ⟨rest, rfl⟩ := leads
      exact absurd (by simp) (absent c rfl)

theorem prefix_append_blanks_iff {key text blanks : List Char} (solid : ' ' ∉ key)
    (blank : Blanks blanks) : key <+: text ++ blanks ↔ key <+: text := by
  refine ⟨prefix_of_append fun c first => ?_, fun leads => leads.trans (List.prefix_append _ _)⟩
  rw [blank c (List.mem_of_head? first)]
  exact solid

theorem blanks_prefix_append_iff {gap text blanks : List Char} (blank : Blanks gap)
    (solid : Solid text) (more : text ≠ []) : gap <+: text ++ blanks ↔ gap <+: text := by
  refine ⟨fun leads => ?_, fun leads => leads.trans (List.prefix_append _ _)⟩
  rcases Nat.le_total gap.length text.length with short | long
  · exact List.prefix_of_prefix_length_le leads (List.prefix_append _ _) short
  · have inside := List.prefix_of_prefix_length_le (List.prefix_append _ _) leads long
    exact absurd (fun c member => blank c (inside.subset member)) (solid.not_blanks more)

def IgnoresBlanks (reader : List Char → Option (Tree × Nat)) : Prop :=
  ∀ text blanks, Unquoted text → Blanks blanks → reader (text ++ blanks) = reader text

namespace Lexeme
variable {text blanks : List Char} (blank : Blanks blanks)
include blank

theorem not_digit_head : blanks.head?.any Char.isDigit = false := by
  cases blanks with
  | nil => rfl
  | cons c rest => rw [blank c (by simp)]; rfl

theorem numeralTail_append_blanks : numeralTail (text ++ blanks) = numeralTail text := by
  induction text with
  | nil =>
    cases blanks with
    | nil => rfl
    | cons c rest =>
      have digits := not_digit_head (blank.suffix (List.suffix_cons c rest))
      rw [blank c (by simp)]
      simp only [List.nil_append, numeralTail, digits]
      rfl
  | cons c text ih =>
    have next : (text ++ blanks).head?.any Char.isDigit = text.head?.any Char.isDigit := by
      cases text with
      | nil => exact not_digit_head blank
      | cons d text => rfl
    simp only [List.cons_append, numeralTail, next, ih]

theorem letters_append_blanks : letters (text ++ blanks) = letters text := by
  unfold letters
  induction text with
  | nil =>
    cases blanks with
    | nil => rfl
    | cons c rest => rw [blank c (by simp)]; rfl
  | cons c text ih => simp only [List.cons_append, List.takeWhile_cons, ih]

theorem longestSign?_append_blanks {table : Symbol.Table}
    (solid : ∀ sign ∈ table.signs, ' ' ∉ sign.1) :
    table.longestSign? (text ++ blanks) = table.longestSign? text := by
  refine List.foldl_ext _ _ _ fun best sign member => ?_
  have same : sign.1.isPrefixOf (text ++ blanks) = sign.1.isPrefixOf text := by
    rw [Bool.eq_iff_iff, List.isPrefixOf_iff_prefix, List.isPrefixOf_iff_prefix,
      prefix_append_blanks_iff (solid sign member) blank]
  simp only [Symbol.Table.longer, same]

theorem quoted?_append_blanks {quote : Char} (other : quote ≠ ' ') (free : quote ∉ text) :
    quoted? quote (text ++ blanks) = none ∧ quoted? quote text = none := by
  have unopened {input : List Char} (absent : quote ∉ input) : quoted? quote input = none := by
    cases input with
    | nil => rfl
    | cons c rest =>
      have first : ¬ c = quote := fun same => absent (by simp [same])
      simp [quoted?, first]
  refine ⟨unopened ?_, unopened free⟩
  rw [List.mem_append, not_or]
  exact ⟨free, fun found => other (blank quote found)⟩

theorem number?_append_blanks : number? (text ++ blanks) = number? text := by
  cases text with
  | nil =>
    cases blanks with
    | nil => rfl
    | cons c rest => rw [blank c (by simp)]; rfl
  | cons c text => simp only [List.cons_append, number?, numeralTail_append_blanks blank]

theorem unknown?_append_blanks : unknown? (text ++ blanks) = unknown? text := by
  unfold unknown?
  simp only [letters_append_blanks blank]
  cases text with
  | nil =>
    cases blanks with
    | nil => rfl
    | cons c rest => rw [blank c (by simp)]; rfl
  | cons c text => rfl

omit blank in
theorem readers_ignore_blanks : ∀ reader ∈ readers, IgnoresBlanks reader := by
  intro reader listed text blanks free blank
  have letters : letters (text ++ blanks) = _ := letters_append_blanks blank
  obtain ⟨double, double'⟩ := quoted?_append_blanks blank (by decide) free.1
  obtain ⟨single, single'⟩ := quoted?_append_blanks blank (by decide) free.2
  simp only [readers, List.mem_cons, List.not_mem_nil, or_false] at listed
  rcases listed with rfl | rfl | rfl | rfl | rfl
  · exact number?_append_blanks blank
  · simp only [text?, double, double']
  · have signs : Symbol.identifiers.longestSign? (text ++ blanks) = _ :=
      longestSign?_append_blanks blank (by decide +kernel)
    simp only [identifier?, quotedIdentifier?, single, single', letters, signs]
  · have signs : Symbol.operators.longestSign? (text ++ blanks) = _ :=
      longestSign?_append_blanks blank (by decide +kernel)
    simp only [operator?, letters, signs]
  · exact unknown?_append_blanks blank

end Lexeme

namespace Cursor

/-- Both inputs are this text and blanks behind it. Once only blanks are left it does not matter
whether a term is expected. -/
structure Share (core : List Char) (first second : Cursor) : Prop where
  solid : Solid core
  left : ∃ blanks, Blanks blanks ∧ first.rest = core ++ blanks
  right : ∃ blanks, Blanks blanks ∧ second.rest = core ++ blanks
  term : core ≠ [] → first.expectTerm = second.expectTerm

/-- Two inputs that differ in the blanks at the end only, inside brackets of the same closer. Each
input fits the depth to which brackets are read in it. -/
structure Alike (depth depth' : Nat) (first second : Cursor) : Prop where
  closer : first.closer = second.closer
  unspaced : ' ' ∉ first.closer.toList
  room : first.rest.length ≤ depth
  room' : second.rest.length ≤ depth'
  core : ∃ core, Share core first second

end Cursor

/-- The same value, and what is left to read differs in the blanks at the end. -/
def Alike {α : Type} (depth depth' : Nat) (first second : α × Cursor) : Prop :=
  first.1 = second.1 ∧ first.2.Alike depth depth' second.2

namespace Cursor
variable {depth depth' : Nat} {first second : Cursor} {core : List Char}

theorem Share.advance (share : Share core first second) {count : Nat} (positive : 0 < count)
    (short : count ≤ core.length) :
    Share (core.drop count) (first.advance count) (second.advance count) := by
  obtain ⟨solid, ⟨blanks, blank, here⟩, ⟨blanks', blank', here'⟩, term⟩ := share
  refine ⟨solid.suffix (List.drop_suffix _ _), ⟨blanks, blank, ?_⟩, ⟨blanks', blank', ?_⟩,
    fun _ => term (List.ne_nil_of_length_pos (by omega))⟩
  · rw [rest_advance, here, List.drop_append_of_le_length short]
  · rw [rest_advance, here', List.drop_append_of_le_length short]

theorem Share.of_blanks (blank : Blanks first.rest) (blank' : Blanks second.rest) :
    Share [] first second :=
  ⟨⟨⟨by simp, by simp⟩, by simp⟩, ⟨_, blank, rfl⟩, ⟨_, blank', rfl⟩, by simp⟩

theorem Share.startsWith (share : Share core first second) {text : String}
    (within : ∀ blanks, Blanks blanks → (text.toList <+: core ++ blanks ↔ text.toList <+: core)) :
    first.startsWith text = second.startsWith text := by
  obtain ⟨_, ⟨blanks, blank, here⟩, ⟨blanks', blank', here'⟩, _⟩ := share
  rw [Bool.eq_iff_iff, startsWith_iff, startsWith_iff, here, here', within blanks blank,
    within blanks' blank']

theorem single_blank_iff (cursor : Cursor) : cursor.peek = some ' ' ∧ cursor.peekAt 1 ≠ some ' ' ↔
    [' '] <+: cursor.rest ∧ ¬ [' ', ' '] <+: cursor.rest := by
  obtain ⟨rest, term, closer⟩ := cursor
  match rest with
  | [] => simp [peek, peekAt]
  | [c] => simp [peek, peekAt, eq_comm]
  | c :: d :: rest =>
    simp only [peek, peekAt, List.getElem?_cons_zero, List.getElem?_cons_succ,
      List.cons_prefix_cons]
    grind

theorem Share.core_ne_nil (share : Share core first second) (visible : ¬ Blanks first.rest) :
    core ≠ [] := by
  intro spent
  obtain ⟨blanks, blank, here⟩ := share.left
  rw [here, spent] at visible
  exact visible blank

namespace Alike
variable (alike : first.Alike depth depth' second)
include alike

theorem expecting (term : Bool) :
    (first.expecting term).Alike depth depth' (second.expecting term) := by
  obtain ⟨core, share⟩ := alike.core
  exact ⟨alike.closer, alike.unspaced, alike.room, alike.room', core, share.solid, share.left,
    share.right, fun _ => rfl⟩

theorem awaiting {closer : String} (unspaced : ' ' ∉ closer.toList) :
    (first.awaiting closer).Alike depth depth' (second.awaiting closer) := by
  obtain ⟨core, share⟩ := alike.core
  exact ⟨rfl, unspaced, alike.room, alike.room', core, share.solid, share.left, share.right,
    share.term⟩

theorem advance (share : Share core first second) {count : Nat} (positive : 0 < count)
    (short : count ≤ core.length) :
    (first.advance count).Alike depth depth' (second.advance count) :=
  ⟨alike.closer, alike.unspaced, Nat.le_trans (List.drop_suffix _ _).length_le alike.room,
    Nat.le_trans (List.drop_suffix _ _).length_le alike.room', _, share.advance positive short⟩

theorem blanks_iff : Blanks first.rest ↔ Blanks second.rest := by
  obtain ⟨core, solid, ⟨blanks, blank, here⟩, ⟨blanks', blank', here'⟩, _⟩ := alike.core
  rw [here, here']
  by_cases spent : core = []
  · simp [spent, blank, blank']
  · have visible := solid.not_blanks spent
    refine iff_of_false (fun all => visible fun c member => all c ?_)
      (fun all => visible fun c member => all c ?_) <;> simp [member]

theorem term (visible : ¬ Blanks first.rest) : first.expectTerm = second.expectTerm := by
  obtain ⟨core, share⟩ := alike.core
  exact share.term (share.core_ne_nil visible)

theorem deeper {deep deep' : Nat} (below : depth ≤ deep) (below' : depth' ≤ deep') :
    first.Alike deep deep' second :=
  ⟨alike.closer, alike.unspaced, Nat.le_trans alike.room below, Nat.le_trans alike.room' below',
    alike.core⟩

theorem atCloser : first.atCloser = second.atCloser := by
  obtain ⟨core, share⟩ := alike.core
  have starts {text : String} (unspaced : ' ' ∉ text.toList) :=
    share.startsWith fun _ => prefix_append_blanks_iff unspaced
  unfold Cursor.atCloser
  rw [← alike.closer, starts (by decide), starts (by decide), starts alike.unspaced]

theorem eat?_of_within (share : Share core first second) {text : String}
    (within : ∀ blanks, Blanks blanks → (text.toList <+: core ++ blanks ↔ text.toList <+: core)) :
    Option.Rel (Cursor.Alike depth depth') (first.eat? text) (second.eat? text) := by
  unfold Cursor.eat?
  rw [← share.startsWith within]
  split
  · rename_i starts
    obtain ⟨spelled, leads⟩ := startsWith_iff.mp starts
    obtain ⟨blanks, blank, here⟩ := share.left
    rw [here, within blanks blank] at leads
    exact .some (alike.advance share (List.length_pos_iff.mpr (by simpa using spelled))
      leads.length_le)
  · exact .none

theorem eat? (text : String) (unspaced : ' ' ∉ text.toList) :
    Option.Rel (Cursor.Alike depth depth') (first.eat? text) (second.eat? text) := by
  obtain ⟨core, share⟩ := alike.core
  exact alike.eat?_of_within share fun _ => prefix_append_blanks_iff unspaced

theorem eat?_gap (visible : ¬ Blanks first.rest) :
    Option.Rel (Cursor.Alike depth depth') (first.eat? "  ") (second.eat? "  ") := by
  obtain ⟨core, share⟩ := alike.core
  exact alike.eat?_of_within share fun _ _ =>
    blanks_prefix_append_iff (by simp [Blanks]) share.solid (share.core_ne_nil visible)

theorem single_blank (visible : ¬ Blanks first.rest) :
    (first.peek = some ' ' ∧ first.peekAt 1 ≠ some ' ' ↔
      second.peek = some ' ' ∧ second.peekAt 1 ≠ some ' ') ∧
      (first.advance 1).Alike depth depth' (second.advance 1) := by
  obtain ⟨core, share⟩ := alike.core
  have more := share.core_ne_nil visible
  obtain ⟨blanks, _, here⟩ := share.left
  obtain ⟨blanks', _, here'⟩ := share.right
  have gap {gap : List Char} (blank : Blanks gap) : gap <+: first.rest ↔ gap <+: second.rest := by
    rw [here, here', blanks_prefix_append_iff blank share.solid more,
      blanks_prefix_append_iff blank share.solid more]
  refine ⟨?_, alike.advance share Nat.one_pos (List.length_pos_iff.mpr more)⟩
  rw [single_blank_iff, single_blank_iff, gap (by simp [Blanks]), gap (by simp [Blanks])]

theorem dropBlanks (term : Bool) :
    Cursor.Alike depth depth'
      { first with rest := first.rest.dropWhile (· == ' '), expectTerm := term }
      { second with rest := second.rest.dropWhile (· == ' '), expectTerm := term } := by
  have ends := List.dropWhile_suffix (l := first.rest) (· == ' ')
  have ends' := List.dropWhile_suffix (l := second.rest) (· == ' ')
  refine ⟨alike.closer, alike.unspaced, Nat.le_trans ends.length_le alike.room,
    Nat.le_trans ends'.length_le alike.room', ?_⟩
  by_cases blank : Blanks first.rest
  · exact ⟨[], .of_blanks (blank.suffix ends) ((alike.blanks_iff.mp blank).suffix ends')⟩
  · obtain ⟨core, share⟩ := alike.core
    obtain ⟨blanks, blankTail, here⟩ := share.left
    obtain ⟨blanks', blankTail', here'⟩ := share.right
    have remains : ¬ (core.dropWhile (· == ' ')).isEmpty = true := by
      intro empty
      exact share.solid.not_blanks (share.core_ne_nil blank)
        (by simpa [Blanks, List.dropWhile_eq_nil_iff] using empty)
    refine ⟨core.dropWhile (· == ' '), share.solid.suffix (List.dropWhile_suffix _),
      ⟨blanks, blankTail, ?_⟩, ⟨blanks', blankTail', ?_⟩, fun _ => rfl⟩
    · rw [here, List.dropWhile_append, if_neg remains]
    · rw [here', List.dropWhile_append, if_neg remains]

theorem leaf? (reader : List Char → Option (Tree × Nat)) (listed : reader ∈ Lexeme.readers) :
    Option.Rel (PlainMath.Alike depth depth') (Grammar.leaf? reader first)
      (Grammar.leaf? reader second) := by
  obtain ⟨core, share⟩ := alike.core
  obtain ⟨blanks, blank, here⟩ := share.left
  obtain ⟨blanks', blank', here'⟩ := share.right
  have ignores := Lexeme.readers_ignore_blanks reader listed
  unfold Grammar.leaf?
  rw [here, here', ignores _ _ share.solid.unquoted blank, ignores _ _ share.solid.unquoted blank']
  cases read : reader core with
  | none => exact .none
  | some found =>
    obtain ⟨positive, short⟩ := Lexeme.readers_bounded reader listed read
    exact .some ⟨rfl, alike.advance share positive short⟩

end Alike
end Cursor

theorem rel_or {α β : Type} {R : α → β → Prop} {first second : Option α}
    {first' second' : Option β} (left : Option.Rel R first first')
    (right : Option.Rel R second second') :
    Option.Rel R (first.or second) (first'.or second') := by
  cases left with
  | none => exact right
  | some same => exact .some same

theorem rel_findSome? {α β γ : Type} {R : β → γ → Prop} {f : α → Option β} {g : α → Option γ}
    {candidates : List α}
    (each : ∀ candidate ∈ candidates, Option.Rel R (f candidate) (g candidate)) :
    Option.Rel R (candidates.findSome? f) (candidates.findSome? g) := by
  induction candidates with
  | nil => exact .none
  | cons candidate candidates ih =>
    rw [List.forall_mem_cons] at each
    simp only [List.findSome?_cons]
    cases found : f candidate <;> cases found' : g candidate <;> have here := each.1 <;>
      rw [found, found'] at here
    · exact ih each.2
    · cases here
    · cases here
    · exact here

inductive Step.Alike {α : Type} (depth depth' : Nat) : Step α → Step α → Prop
  | take (value : α) {after after' : Cursor} (alike : after.Alike depth depth' after') :
      Step.Alike depth depth' (.take value after) (.take value after')
  | skip {after after' : Cursor} (alike : after.Alike depth depth' after') :
      Step.Alike depth depth' (.skip after) (.skip after')
  | stop {last last' : Cursor} (alike : last.Alike depth depth' last') :
      Step.Alike depth depth' (.stop last) (.stop last')

namespace Repetition
variable {α : Type} {repetition repetition' : Repetition α} {depth depth' : Nat}

def NoneFromBlanks (repetition : Repetition α) : Prop :=
  ∀ {cursor value after}, repetition.step cursor = .take value after → ¬ Blanks cursor.rest

theorem NoneFromBlanks.collect (never : repetition.NoneFromBlanks) (forward : repetition.Forward)
    (cursor : Cursor) : Blanks cursor.rest → (repetition.collect cursor).1 = [] := by
  refine repetition.collect_induct (P := fun cursor found => Blanks cursor.rest → found.1 = [])
    ?_ ?_ ?_ cursor
  · intro cursor after value more step _ blank
    exact absurd blank (never step)
  · intro cursor after more step ih blank
    exact ih (blank.suffix (forward.skip step).rest)
  · intro cursor last _ _
    rfl

theorem collect_alike (forward : repetition.Forward) (forward' : repetition'.Forward)
    (never : repetition.NoneFromBlanks) (never' : repetition'.NoneFromBlanks)
    (steps : ∀ {first second : Cursor}, first.Alike depth depth' second → ¬ Blanks first.rest →
      (repetition.step first).Alike depth depth' (repetition'.step second))
    {first second : Cursor} (alike : first.Alike depth depth' second) :
    Alike depth depth' (repetition.collect first) (repetition'.collect second) := by
  induction size : first.rest.length using Nat.strongRecOn generalizing first second with
  | ind length ih =>
    subst size
    by_cases blank : Blanks first.rest
    · -- the two may step over different numbers of blanks, but take nothing on the way
      have blank' := alike.blanks_iff.mp blank
      have leads := forward.collect first
      have leads' := forward'.collect second
      refine ⟨by rw [never.collect forward first blank, never'.collect forward' second blank'],
        ?_, ?_, Nat.le_trans leads.rest.length_le alike.room,
        Nat.le_trans leads'.rest.length_le alike.room',
        [], .of_blanks (blank.suffix leads.rest) (blank'.suffix leads'.rest)⟩
      · rw [leads.closer, leads'.closer, alike.closer]
      · rw [leads.closer]
        exact alike.unspaced
    · have both := steps alike blank
      generalize step : repetition.step first = done,
        step' : repetition'.step second = done' at both
      cases both with
      | take value after =>
        have more := ih _ (repetition.take_shorter step) after rfl
        rw [collect_take _ step, collect_take _ step']
        exact ⟨by rw [more.1], more.2⟩
      | skip after =>
        rw [collect_skip _ step, collect_skip _ step']
        exact ih _ (repetition.skip_shorter step) after rfl
      | stop last =>
        rw [collect_stop _ step, collect_stop _ step']
        exact ⟨rfl, last⟩

end Repetition

namespace Grammar
variable {cursor after : Cursor} {depth depth' : Nat}

theorem leaf?_visible {reader : List Char → Option (Tree × Nat)} {tree : Tree}
    (listed : reader ∈ Lexeme.readers) (found : leaf? reader cursor = some (tree, after)) :
    ¬ Blanks cursor.rest := by
  intro blank
  obtain ⟨length, read, _⟩ := leaf?_eq_some found
  have same := Lexeme.readers_ignore_blanks reader listed [] _ ⟨by simp, by simp⟩ blank
  rw [List.nil_append, read] at same
  have bound := Lexeme.readers_bounded reader listed same.symm
  simp only [List.length_nil] at bound
  omega

theorem open?_visible {bracket : Bracket} (opened : cursor.open? = some (bracket, after)) :
    ¬ Blanks cursor.rest := by
  intro blank
  have spelled : ∀ bracket ∈ Bracket.all, bracket.opener.toList.all (· == ' ') = false := by
    decide
  obtain ⟨candidate, listed, found⟩ := List.exists_of_findSome?_eq_some opened
  obtain ⟨c, member, visible⟩ := List.all_eq_false.mp (spelled candidate listed)
  split at found
  · obtain ⟨eaten, ate, _⟩ := Option.map_eq_some_iff.mp found
    refine visible (beq_iff_eq.mpr (blank c ?_))
    rw [(Cursor.eat?_eq_some ate).2]
    exact List.mem_append_left _ member
  · cases found

theorem run_visible {tree : Tree} (found : (brackets depth).run cursor = some (tree, after)) :
    ¬ Blanks cursor.rest := by
  cases depth with
  | zero => cases found
  | succ depth =>
    obtain ⟨bracket, inside, opened, _⟩ := bracketed?_eq_some found
    exact open?_visible opened

theorem run_eq_none (blank : Blanks cursor.rest) : (brackets depth).run cursor = none := by
  cases found : (brackets depth).run cursor with
  | none => rfl
  | some read => exact absurd blank (run_visible found)

theorem atoms_noneFromBlanks : (atoms (brackets depth)).NoneFromBlanks := by
  intro cursor tree after step
  obtain ⟨next, read, _⟩ := atomStep_take step
  rcases atom?_eq_some read with bracket | ⟨reader, listed, leaf⟩
  · exact run_visible bracket
  · exact leaf?_visible listed leaf

theorem cluster?_visible {tree : Tree}
    (found : cluster? (brackets depth) cursor = some (tree, after)) : ¬ Blanks cursor.rest := by
  intro blank
  have items := (cluster?_eq_some found).1
  rw [atoms_noneFromBlanks.collect (atoms_forward (brackets_forward depth)) cursor blank] at items
  cases items

theorem rowElements_noneFromBlanks : (rowElements (brackets depth)).NoneFromBlanks := by
  intro cursor tree after step
  rcases rowStep_take step with ⟨next, dots, _⟩ | cluster
  · exact leaf?_visible (by simp [Lexeme.readers]) (range?_eq_some dots)
  · exact cluster?_visible cluster

theorem rowCells_noneFromBlanks : (rowCells (brackets depth)).NoneFromBlanks := by
  intro cursor tree after step blank
  have cell := (cellStep_take step).1
  rw [row, rowElements_noneFromBlanks.collect (rowElements_forward (brackets_forward depth)) cursor
    blank] at cell
  cases cell

theorem gridRows_noneFromBlanks : (gridRows (brackets depth)).NoneFromBlanks := by
  intro cursor cells after step blank
  have row := (gridStep_take step).1
  rw [gridRow, rowCells_noneFromBlanks.collect (rowCells_forward (brackets_forward depth)) cursor
    blank] at row
  cases row

section
variable {first second : Cursor} (alike : first.Alike depth depth' second)
include alike

theorem closing_alike : Alike depth depth' (closing first) (closing second) := by
  have unspaced : ∀ closer ∈ Bracket.closers, ' ' ∉ closer.1.toList := by decide
  have closed : Option.Rel (Alike depth depth') first.close? second.close? := by
    refine rel_findSome? fun closer listed => ?_
    have eaten := alike.eat? _ (unspaced closer listed)
    generalize first.eat? closer.1 = ate, second.eat? closer.1 = ate' at eaten
    cases eaten with
    | none => exact .none
    | some after => exact .some ⟨rfl, after⟩
  unfold closing
  generalize first.close? = found, second.close? = found' at closed
  cases closed with
  | none => exact ⟨rfl, alike⟩
  | some both => exact both

theorem range?_alike : Option.Rel (Cursor.Alike depth depth') (range? first) (range? second) := by
  have read := alike.leaf? Lexeme.operator? (by simp [Lexeme.readers])
  unfold range?
  generalize leaf? Lexeme.operator? first = found, leaf? Lexeme.operator? second = found' at read
  cases read with
  | none => exact .none
  | some both =>
    dsimp only
    rw [← both.1]
    split
    · exact .some both.2
    · exact .none

variable (visible : ¬ Blanks first.rest)
include visible

omit alike in
theorem not_atEnd : first.atEnd = false := by
  rw [Cursor.atEnd, List.isEmpty_eq_false_iff]
  intro ended
  exact visible (by simp [ended, Blanks])

theorem open?_alike : Option.Rel (Alike depth depth') first.open? second.open? := by
  have unspaced : ∀ bracket ∈ Bracket.all, ' ' ∉ bracket.opener.toList := by decide
  refine rel_findSome? fun bracket listed => ?_
  have eaten := alike.eat? _ (unspaced bracket listed)
  rw [← alike.term visible]
  split
  · generalize first.eat? bracket.opener = ate, second.eat? bracket.opener = ate' at eaten
    cases eaten with
    | none => exact .none
    | some after => exact .some ⟨rfl, after⟩
  · exact .none

theorem word?_alike : Option.Rel (Alike depth depth') (word? first) (word? second) := by
  have identifier := alike.leaf? Lexeme.identifier? (by simp [Lexeme.readers])
  have operator := alike.leaf? Lexeme.operator? (by simp [Lexeme.readers])
  have unknown := alike.leaf? Lexeme.unknown? (by simp [Lexeme.readers])
  unfold word?
  rw [← alike.term visible]
  split
  · exact rel_or identifier (rel_or operator unknown)
  · exact rel_or operator (rel_or identifier unknown)

end

def BracketsAlike (depth depth' : Nat) : Prop :=
  ∀ {first second : Cursor}, first.Alike depth depth' second →
    Option.Rel (Alike depth depth') ((brackets depth).run first) ((brackets depth').run second)

section
variable (nested : BracketsAlike depth depth') {first second : Cursor}
include nested

theorem atomStep_alike (alike : first.Alike depth depth' second) (visible : ¬ Blanks first.rest) :
    (atomStep (brackets depth) first).Alike depth depth' (atomStep (brackets depth') second) := by
  have atom : Option.Rel (Alike depth depth') (atom? (brackets depth) first)
      (atom? (brackets depth') second) :=
    rel_or (nested alike) <| rel_or (alike.leaf? _ (by simp [Lexeme.readers])) <|
      rel_or (alike.leaf? _ (by simp [Lexeme.readers])) (word?_alike alike visible)
  have visible' := alike.blanks_iff.not.mp visible
  unfold atomStep
  rw [not_atEnd visible, not_atEnd visible', alike.atCloser]
  split
  · exact .stop alike
  · generalize atom? (brackets depth) first = found, atom? (brackets depth') second = found' at atom
    cases atom with
    | none => exact .stop alike
    | @some read read' both =>
      obtain ⟨tree, after⟩ := read
      obtain ⟨_, after'⟩ := read'
      obtain ⟨rfl, both⟩ := both
      dsimp only
      split
      · exact .stop alike
      · exact .take tree (both.expecting _)

theorem cluster?_alike (alike : first.Alike depth depth' second) :
    Option.Rel (Alike depth depth') (cluster? (brackets depth) first)
      (cluster? (brackets depth') second) := by
  have items := Repetition.collect_alike (atoms_forward (brackets_forward depth))
    (atoms_forward (brackets_forward depth')) atoms_noneFromBlanks atoms_noneFromBlanks
    (atomStep_alike nested) alike
  simp only [cluster?, ← items.1]
  cases Tree.ofCluster? ((atoms (brackets depth)).collect first).1 with
  | none => exact .none
  | some tree => exact .some ⟨rfl, items.2⟩

theorem rowStep_alike (alike : first.Alike depth depth' second) (visible : ¬ Blanks first.rest) :
    (rowStep (brackets depth) first).Alike depth depth' (rowStep (brackets depth') second) := by
  have visible' := alike.blanks_iff.not.mp visible
  unfold rowStep
  simp only [not_atEnd visible, not_atEnd visible', Bool.false_eq_true, if_false,
    (alike.single_blank visible).1]
  split
  · exact .skip (alike.single_blank visible).2
  · have dots := range?_alike alike
    have cluster := cluster?_alike nested alike
    generalize range? first = found, range? second = found' at dots
    cases dots with
    | some after => exact .take _ (after.expecting true)
    | none =>
      generalize cluster? (brackets depth) first = read, cluster? (brackets depth') second = read'
        at cluster
      cases cluster with
      | none => exact .stop alike
      | @some read read' both =>
        obtain ⟨tree, after⟩ := read
        obtain ⟨_, after'⟩ := read'
        obtain ⟨rfl, both⟩ := both
        exact .take tree both

theorem row_alike (alike : first.Alike depth depth' second) :
    Alike depth depth' (row (brackets depth) first) (row (brackets depth') second) := by
  have items := Repetition.collect_alike (rowElements_forward (brackets_forward depth))
    (rowElements_forward (brackets_forward depth')) rowElements_noneFromBlanks
    rowElements_noneFromBlanks (rowStep_alike nested) alike
  exact ⟨by simp only [row, items.1], items.2⟩

theorem cellStep_alike (alike : first.Alike depth depth' second) (visible : ¬ Blanks first.rest) :
    (cellStep (brackets depth) first).Alike depth depth' (cellStep (brackets depth') second) := by
  have visible' := alike.blanks_iff.not.mp visible
  have gap := alike.eat?_gap visible
  have row := row_alike nested alike
  unfold cellStep
  rw [not_atEnd visible, not_atEnd visible', if_neg (by simp), if_neg (by simp), ← row.1]
  generalize first.eat? "  " = ate, second.eat? "  " = ate' at gap
  cases gap with
  | some after => exact .skip (after.dropBlanks true)
  | none =>
    cases (Grammar.row (brackets depth) first).1 with
    | none => exact .stop row.2
    | some tree => exact .take tree row.2

theorem gridRow_alike (alike : first.Alike depth depth' second) :
    Alike depth depth' (gridRow (brackets depth) first) (gridRow (brackets depth') second) := by
  have cells := Repetition.collect_alike (rowCells_forward (brackets_forward depth))
    (rowCells_forward (brackets_forward depth')) rowCells_noneFromBlanks
    rowCells_noneFromBlanks (cellStep_alike nested) alike
  exact ⟨by simp only [gridRow, cells.1], cells.2⟩

theorem gridStep_alike (alike : first.Alike depth depth' second) (visible : ¬ Blanks first.rest) :
    (gridStep (brackets depth) first).Alike depth depth' (gridStep (brackets depth') second) := by
  have visible' := alike.blanks_iff.not.mp visible
  have semicolon := alike.eat? ";" (by decide)
  have row := gridRow_alike nested alike
  unfold gridStep
  rw [not_atEnd visible, not_atEnd visible', if_neg (by simp), if_neg (by simp), ← row.1]
  generalize first.eat? ";" = ate, second.eat? ";" = ate' at semicolon
  cases semicolon with
  | some after => exact .skip (after.expecting true)
  | none =>
    cases (gridRow (brackets depth) first).1 with
    | none => exact .stop row.2
    | some cells => exact .take cells row.2

theorem grid_alike (alike : first.Alike depth depth' second) :
    Alike depth depth' (grid (brackets depth) first) (grid (brackets depth') second) := by
  have rows := Repetition.collect_alike (gridRows_forward (brackets_forward depth))
    (gridRows_forward (brackets_forward depth')) gridRows_noneFromBlanks
    gridRows_noneFromBlanks (gridStep_alike nested) alike
  exact ⟨by simp only [grid, rows.1], rows.2⟩

end

theorem bracketed?_alike (nested : BracketsAlike depth depth') {first second : Cursor}
    (alike : first.Alike (depth + 1) (depth' + 1) second) (visible : ¬ Blanks first.rest) :
    Option.Rel (Alike (depth + 1) (depth' + 1)) (bracketed? (brackets depth) first)
      (bracketed? (brackets depth') second) := by
  have spelled : ∀ bracket ∈ Bracket.all, ' ' ∉ bracket.closer.toList := by decide
  have both := open?_alike alike visible
  unfold bracketed?
  generalize opened : first.open? = found, opened' : second.open? = found' at both
  cases both with
  | none => exact .none
  | @some found found' both =>
    obtain ⟨bracket, inside⟩ := found
    obtain ⟨_, inside'⟩ := found'
    obtain ⟨rfl, both⟩ := both
    -- the opener took a character, so one level less is enough inside
    have shorter : inside.Alike depth depth' inside' := by
      refine ⟨both.closer, both.unspaced, ?_, ?_, both.core⟩
      · exact Nat.le_of_lt_succ (Nat.lt_of_lt_of_le (Cursor.open?_shorter opened) alike.room)
      · exact Nat.le_of_lt_succ (Nat.lt_of_lt_of_le (Cursor.open?_shorter opened') alike.room')
    have inner := grid_alike nested
      ((shorter.awaiting (spelled bracket (open?_mem opened))).expecting true)
    have closed := closing_alike inner.2
    refine .some ⟨?_, ?_⟩
    · dsimp only
      rw [inner.1, closed.1]
    · dsimp only
      rw [← alike.closer]
      exact ((closed.2.awaiting alike.unspaced).expecting false).deeper (Nat.le_succ _)
        (Nat.le_succ _)

theorem brackets_alike (depth depth' : Nat) : BracketsAlike depth depth' := by
  induction depth generalizing depth' with
  | zero =>
    intro first second alike
    have blank : Blanks first.rest := by
      rw [List.length_eq_zero_iff.mp (Nat.le_zero.mp alike.room)]
      simp [Blanks]
    rw [run_eq_none blank, run_eq_none (alike.blanks_iff.mp blank)]
    exact .none
  | succ depth ih =>
    intro first second alike
    by_cases blank : Blanks first.rest
    · rw [run_eq_none blank, run_eq_none (alike.blanks_iff.mp blank)]
      exact .none
    · cases depth' with
      | zero =>
        refine absurd (alike.blanks_iff.mpr ?_) blank
        rw [List.length_eq_zero_iff.mp (Nat.le_zero.mp alike.room')]
        simp [Blanks]
      | succ depth' => exact bracketed?_alike (ih depth') alike blank

end Grammar

theorem parse_append_blanks {text blanks : List Char} (free : Unquoted text)
    (blank : Blanks blanks) :
    parse (String.ofList (text ++ blanks)) = parse (String.ofList text) := by
  obtain ⟨core, tail, rfl, solid, blankTail⟩ := exists_solid_append_blanks free
  have share : Cursor.Share core (.start (core ++ tail ++ blanks)) (.start (core ++ tail)) :=
    ⟨solid, ⟨tail ++ blanks, List.forall_mem_append.mpr ⟨blankTail, blank⟩,
      List.append_assoc _ _ _⟩, ⟨tail, blankTail, rfl⟩, fun _ => rfl⟩
  have alike : Cursor.Alike _ _ (.start (core ++ tail ++ blanks)) (.start (core ++ tail)) :=
    ⟨rfl, by simp [Cursor.start], Nat.le_refl _, Nat.le_refl _, core, share⟩
  have same := (Grammar.grid_alike (Grammar.brackets_alike _ _) alike).1
  simpa only [parse, Cursor.grid, Cursor.brackets, String.toList_ofList] using same

end PlainMath
