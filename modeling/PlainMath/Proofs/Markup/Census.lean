import Mathlib.Algebra.Ring.Nat
import PlainMath.Proofs.Markup.Balanced

/-! Counting elements in written markup. A survey goes over the text once, keeps the
elements that are open with the number of elements directly in each, and gives an account of
every element when its end tag comes. Over the text of proper markup it finds the elements
of the markup, each with as many parts as it has. -/
namespace PlainMath.Markup
open PlainMath.Text

structure Tally where
  tag : String
  parts : Nat
deriving DecidableEq, Repr

def Tally.more (count : Nat) (tally : Tally) : Tally := { tally with parts := tally.parts + count }

structure Survey where
  /-- inside a tag, what has been read of it -/
  heading : Option (List Char)
  /-- the elements around, the innermost first -/
  opened : List Tally
  /-- the elements that have ended, the last at the end -/
  closed : List Tally

namespace Survey

def start : Survey := ⟨none, [], []⟩

def enter (survey : Survey) (tag : String) : Survey :=
  { survey with opened := ⟨tag, 0⟩ :: survey.opened.modifyHead (·.more 1) }

def leave (survey : Survey) : Survey :=
  match survey.opened with
  | [] => survey
  | tally :: outer => { survey with opened := outer, closed := survey.closed ++ [tally] }

/-- What stands between angle brackets. Its tag goes up to the first blank. -/
def meet (survey : Survey) (chars : List Char) : Survey :=
  if chars.head? = some '/' then survey.leave
  else
    let entered := survey.enter (String.ofList (chars.takeWhile (· ≠ ' ')))
    if chars.getLast? = some '/' then entered.leave else entered

def read (survey : Survey) (c : Char) : Survey :=
  match survey.heading with
  | none => if c = '<' then { survey with heading := some [] } else survey
  | some chars =>
    if c = '>' then { survey with heading := none }.meet chars
    else { survey with heading := some (chars ++ [c]) }

def add (survey : Survey) (count : Nat) (tallies : List Tally) : Survey :=
  { survey with
    opened := survey.opened.modifyHead (·.more count), closed := survey.closed ++ tallies }

@[simp] theorem heading_enter (survey : Survey) (tag : String) :
    (survey.enter tag).heading = survey.heading := rfl

@[simp] theorem heading_add (survey : Survey) (count : Nat) (tallies : List Tally) :
    (survey.add count tallies).heading = survey.heading := rfl

theorem add_zero (survey : Survey) : survey.add 0 [] = survey := by
  obtain ⟨heading, opened, closed⟩ := survey
  cases opened <;> simp [add, Tally.more]

theorem add_add (survey : Survey) (count more : Nat) (tallies others : List Tally) :
    (survey.add count tallies).add more others = survey.add (count + more) (tallies ++ others) := by
  obtain ⟨heading, opened, closed⟩ := survey
  cases opened <;> simp [add, Tally.more, Nat.add_assoc]

theorem leave_add_enter (survey : Survey) (tag : String) (count : Nat) (tallies : List Tally) :
    ((survey.enter tag).add count tallies).leave = survey.add 1 (tallies ++ [⟨tag, count⟩]) := by
  simp [enter, add, leave, Tally.more]

theorem foldl_read_of_not_mem {survey : Survey} (outside : survey.heading = none)
    {text : List Char} (quiet : '<' ∉ text) : text.foldl read survey = survey := by
  induction text with
  | nil => rfl
  | cons c text ih =>
    rw [List.mem_cons, not_or] at quiet
    have same : survey.read c = survey := by simp [read, outside, Ne.symm quiet.1]
    rw [List.foldl_cons, same, ih quiet.2]

theorem foldl_read_tag {survey : Survey} (outside : survey.heading = none) {chars : List Char}
    (inside : '>' ∉ chars) : ('<' :: (chars ++ ['>'])).foldl read survey = survey.meet chars := by
  have gather (front : List Char) : chars.foldl read { survey with heading := some front } =
      { survey with heading := some (front ++ chars) } := by
    induction chars generalizing front with
    | nil => simp
    | cons c chars ih =>
      rw [List.mem_cons, not_or] at inside
      have step : { survey with heading := some front }.read c =
          { survey with heading := some (front ++ [c]) } := by simp [read, Ne.symm inside.1]
      rw [List.foldl_cons, step, ih inside.2, List.append_assoc]
      rfl
  have opens : survey.read '<' = { survey with heading := some [] } := by simp [read, outside]
  rw [List.foldl_cons, opens, List.foldl_append, gather]
  simp [read, ← outside]

theorem foldl_read_flatMap {α : Type} {written : α → List Char} {count : α → Nat}
    {ended : α → List Tally} {items : List α}
    (each : ∀ item ∈ items, ∀ {survey : Survey}, survey.heading = none →
      (written item).foldl read survey = survey.add (count item) (ended item))
    {survey : Survey} (outside : survey.heading = none) :
    (items.flatMap written).foldl read survey =
      survey.add (items.map count).sum (items.flatMap ended) := by
  induction items generalizing survey with
  | nil => exact survey.add_zero.symm
  | cons item items ih =>
    obtain ⟨first, rest⟩ := List.forall_mem_cons.mp each
    have still : (survey.add (count item) (ended item)).heading = none := outside
    rw [List.flatMap_cons, List.foldl_append, first outside, ih rest still, add_add,
      List.map_cons, List.sum_cons, List.flatMap_cons]

end Survey

def census (text : List Char) : List Tally := (text.foldl Survey.read .start).closed

def IsName (tag : String) : Prop := tag ≠ "" ∧ tag.toList.all Char.isLower = true

instance (tag : String) : Decidable (IsName tag) := inferInstanceAs (Decidable (_ ∧ _))

theorem isName_of_mem_tags : ∀ tag ∈ tags, IsName tag := by decide

theorem heading_eq {property : Option (String × String)} (named : Property property)
    (tag : String) : ∃ behind : List Char, (heading tag property).toList = tag.toList ++ behind ∧
      (behind = [] ∨ ∃ inner, behind = ' ' :: (inner ++ ['\x22'])) ∧ '>' ∉ behind := by
  cases property with
  | none => exact ⟨[], by simp [heading], .inl rfl, by simp⟩
  | some property =>
    obtain ⟨name, value⟩ := property
    obtain ⟨nameLetters, valueLetters⟩ := named (name, value) rfl
    refine ⟨' ' :: ((name.toList ++ "=\"".toList ++ value.toList) ++ ['\x22']), by simp [heading],
      .inr ⟨_, rfl⟩, ?_⟩
    have letter {text : String} (letters : text.toList.all Char.isAlphanum = true) :
        '>' ∉ text.toList := fun member =>
      absurd (List.all_eq_true.mp letters '>' member) (by decide)
    simp [letter nameLetters, letter valueLetters]

section
variable {tag : String} (name : IsName tag)
include name

theorem IsName.not_mem {c : Char} (other : c.isLower = false) : c ∉ tag.toList := fun member =>
  absurd (List.all_eq_true.mp name.2 c member) (by simp [other])

theorem IsName.takeWhile {behind : List Char} (blank : behind = [] ∨ behind.head? = some ' ') :
    (tag.toList ++ behind).takeWhile (· ≠ ' ') = tag.toList := by
  have letters : ∀ c ∈ tag.toList, decide (c ≠ ' ') = true := by
    intro c member
    rw [decide_eq_true_eq]
    rintro rfl
    exact name.not_mem (by decide) member
  rw [List.takeWhile_append_of_pos letters]
  cases behind with
  | nil => simp
  | cons c behind =>
    rcases blank with empty | first
    · cases empty
    · cases first
      simp

theorem IsName.head?_append (behind : List Char) :
    (tag.toList ++ behind).head? ≠ some '/' := by
  cases spelled : tag.toList with
  | nil => exact absurd (by simpa using spelled) name.1
  | cons c rest =>
    have letter := name.not_mem (c := '/') (by decide)
    rw [spelled, List.mem_cons, not_or] at letter
    simpa using Ne.symm letter.1

theorem meet_heading (survey : Survey) {property : Option (String × String)}
    (named : Property property) :
    survey.meet (heading tag property).toList = survey.enter tag := by
  obtain ⟨behind, whole, blank, _⟩ := heading_eq named tag
  have last : (tag.toList ++ behind).getLast? ≠ some '/' := by
    rcases blank with rfl | ⟨inner, rfl⟩
    · rw [List.append_nil]
      exact fun last => name.not_mem (c := '/') (by decide) (List.mem_of_getLast? last)
    · rw [← List.cons_append, ← List.append_assoc, List.getLast?_append]
      simp
  have first : behind = [] ∨ behind.head? = some ' ' := by
    rcases blank with rfl | ⟨inner, rfl⟩
    · exact .inl rfl
    · exact .inr rfl
  rw [whole, Survey.meet, if_neg (name.head?_append behind), if_neg last, name.takeWhile first,
    String.ofList_toList]

theorem meet_void (survey : Survey) {property : Option (String × String)}
    (named : Property property) :
    survey.meet ((heading tag property).toList ++ [' ', '/']) = (survey.enter tag).leave := by
  obtain ⟨behind, whole, blank, _⟩ := heading_eq named tag
  have first : behind ++ [' ', '/'] = [] ∨ (behind ++ [' ', '/']).head? = some ' ' := by
    rcases blank with rfl | ⟨inner, rfl⟩
    · exact .inr rfl
    · exact .inr rfl
  have last : (tag.toList ++ (behind ++ [' ', '/'])).getLast? = some '/' := by
    simp [List.getLast?_append]
  rw [whole, List.append_assoc, Survey.meet, if_neg (name.head?_append _), if_pos last,
    name.takeWhile first, String.ofList_toList]

theorem not_mem_heading {property : Option (String × String)} (named : Property property) :
    '>' ∉ (heading tag property).toList := by
  obtain ⟨behind, whole, _, quiet⟩ := heading_eq named tag
  rw [whole, List.mem_append, not_or]
  exact ⟨name.not_mem (by decide), quiet⟩

variable {survey : Survey} (outside : survey.heading = none)
include outside

theorem foldl_read_startTag {property : Option (String × String)} (named : Property property) :
    (startTag tag property).toList.foldl Survey.read survey = survey.enter tag := by
  have spelled : (startTag tag property).toList = '<' :: ((heading tag property).toList ++ ['>']) := by
    simp [startTag]
  rw [spelled, Survey.foldl_read_tag outside (not_mem_heading name named), meet_heading name _ named]

theorem foldl_read_endTag : (endTag tag).toList.foldl Survey.read survey = survey.leave := by
  have spelled : (endTag tag).toList = '<' :: (('/' :: tag.toList) ++ ['>']) := by simp [endTag]
  have inside : '>' ∉ '/' :: tag.toList := by simpa using name.not_mem (by decide)
  rw [spelled, Survey.foldl_read_tag outside inside]
  exact if_pos rfl

theorem foldl_read_void {property : Option (String × String)} (named : Property property) :
    (atomText (.void tag property)).toList.foldl Survey.read survey = (survey.enter tag).leave := by
  have spelled : (atomText (.void tag property)).toList =
      '<' :: (((heading tag property).toList ++ [' ', '/']) ++ ['>']) := by simp [atomText]
  have inside : '>' ∉ (heading tag property).toList ++ [' ', '/'] := by
    simpa using not_mem_heading name named
  rw [spelled, Survey.foldl_read_tag outside inside, meet_void name _ named]

end

def atomTag : Atom → String
  | .filled tag _ _ => tag
  | .void tag _ => tag

def width : Markup → Nat
  | .line atoms => atoms.length
  | .element .. => 1

mutual

def tallies : Markup → List Tally
  | .line atoms => atoms.map fun atom => ⟨atomTag atom, 0⟩
  | .element tag _ parts => listTallies parts ++ [⟨tag, (parts.map width).sum⟩]

def listTallies : List Markup → List Tally
  | [] => []
  | markup :: rest => markup.tallies ++ listTallies rest

end

theorem listTallies_eq (parts : List Markup) : listTallies parts = parts.flatMap tallies := by
  induction parts with
  | nil => rfl
  | cons markup rest ih => rw [listTallies, ih, List.flatMap_cons]

def Quiet : Style → Prop
  | .compact => True
  | .pretty indent => '<' ∉ indent.toList

theorem not_mem_of_plain {text : List Char} (plain : Plain text) : '<' ∉ text := by
  induction plain with
  | nil => simp
  | char ordinary _ ih => simp [Ne.symm ordinary.1, ih]
  | @reference name rest _ letters _ ih =>
    have quiet : '<' ∉ name := fun member => absurd (letters '<' member) (by decide)
    simp [quiet, ih]

/-- The survey of the text finds the elements of the markup, wherever the text stands. -/
def Surveyed (style : Style) (markup : Markup) : Prop :=
  ∀ depth {survey : Survey}, survey.heading = none →
    (text style depth markup).toList.foldl Survey.read survey =
      survey.add markup.width markup.tallies

section
variable {style : Style} (quiet : Quiet style)
include quiet

theorem foldl_read_write {depth : Nat} {line : String} {survey after : Survey}
    (outside : survey.heading = none) (reads : line.toList.foldl Survey.read survey = after)
    (ended : after.heading = none) :
    (style.write (depth, line)).toList.foldl Survey.read survey = after := by
  cases style with
  | compact => exact reads
  | pretty indent =>
    have margin : '<' ∉ (String.join (List.replicate depth indent)).toList := by
      rw [String.toList_join, List.mem_flatMap]
      rintro ⟨copy, copied, member⟩
      rw [List.eq_of_mem_replicate copied] at member
      exact quiet member
    have spelled : ((Style.pretty indent).write (depth, line)).toList =
        (String.join (List.replicate depth indent)).toList ++ (line.toList ++ ['\n']) := by
      simp [Style.write]
    rw [spelled, List.foldl_append, Survey.foldl_read_of_not_mem outside margin, List.foldl_append,
      reads]
    exact Survey.foldl_read_of_not_mem ended (by decide)

omit quiet in
theorem foldl_read_atom {atom : Atom} (proper : AtomProper atom) {survey : Survey}
    (outside : survey.heading = none) :
    (atomText atom).toList.foldl Survey.read survey = survey.add 1 [⟨atomTag atom, 0⟩] := by
  have closed (tag : String) : (survey.enter tag).leave = survey.add 1 [⟨tag, 0⟩] := by
    rw [← Survey.add_zero (survey.enter tag), Survey.leave_add_enter, List.nil_append]
  cases atom with
  | filled tag property content =>
    obtain ⟨known, named, plain⟩ := proper
    have name := isName_of_mem_tags tag known
    have inside : (survey.enter tag).heading = none := outside
    rw [atomText, String.toList_append, String.toList_append, List.foldl_append, List.foldl_append,
      foldl_read_startTag name outside named,
      Survey.foldl_read_of_not_mem inside (not_mem_of_plain plain), foldl_read_endTag name inside]
    exact closed tag
  | void tag property =>
    obtain ⟨rfl, named⟩ := proper
    rw [foldl_read_void (by decide) outside named]
    exact closed "mspace"

theorem surveyed_line {atoms : List Atom} (proper : ∀ atom ∈ atoms, AtomProper atom) :
    Surveyed style (.line atoms) := by
  intro depth survey outside
  have inner : (String.join (atoms.map atomText)).toList.foldl Survey.read survey =
      survey.add (width (.line atoms)) (tallies (.line atoms)) := by
    rw [String.toList_join, List.flatMap_map, Survey.foldl_read_flatMap
      (fun atom member _ outside => foldl_read_atom (proper atom member) outside) outside,
      List.map_const', List.sum_replicate_nat, Nat.mul_one, ← List.map_eq_flatMap, width, tallies]
  have line : (text style depth (.line atoms)).toList =
      (style.write (depth, String.join (atoms.map atomText))).toList := by
    simp only [text, lines, List.map_cons, List.map_nil, String.toList_join,
      List.flatMap_singleton]
  rw [line]
  exact foldl_read_write quiet outside inner outside

theorem surveyed_element {tag : String} (name : IsName tag) {property : Option (String × String)}
    (named : Property property) {parts : List Markup}
    (surveyed : ∀ part ∈ parts, Surveyed style part) :
    Surveyed style (.element tag property parts) := by
  intro depth survey outside
  have inside : (survey.enter tag).heading = none := outside
  let last := (survey.enter tag).add (parts.map width).sum (parts.flatMap tallies)
  have still : last.heading = none := outside
  have middle : (String.join (parts.map (text style (depth + 1)))).toList.foldl Survey.read
      (survey.enter tag) = last := by
    rw [String.toList_join, List.flatMap_map]
    exact Survey.foldl_read_flatMap (fun part member _ => surveyed part member (depth + 1)) inside
  have closed : (endTag tag).toList.foldl Survey.read last = last.leave :=
    foldl_read_endTag name still
  rw [Survey.leave_add_enter] at closed
  rw [text_element, List.foldl_append, List.foldl_append,
    foldl_read_write quiet outside (foldl_read_startTag name outside named) inside, middle,
    foldl_read_write quiet still closed outside, width, tallies, listTallies_eq]

theorem surveyed_of_proper {markup : Markup} (proper : Proper markup) : Surveyed style markup := by
  induction proper with
  | line proper => exact surveyed_line quiet proper
  | element known named _ ih => exact surveyed_element quiet (isName_of_mem_tags _ known) named ih

end

theorem census_text {style : Style} {markup : Markup} (surveyed : Surveyed style markup) :
    census (text style 0 markup).toList = markup.tallies := by
  rw [census, surveyed 0 rfl]
  rfl

end PlainMath.Markup
