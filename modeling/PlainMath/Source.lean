import PlainMath.Arrow.Braced

/-! Source text made ready for the grammar: carriage returns go, tabs become
blanks, arrows become calls, and line breaks become single blanks. -/
namespace PlainMath.Source

def expandTabs (width : Nat) (source : List Char) : List Char :=
  source.flatMap fun c => if c = '\t' then List.replicate width ' ' else [c]

def expand (tabWidth : Nat) (source : List Char) : List Char :=
  expandTabs tabWidth (source.filter (· ≠ '\r'))

def flatten (tabWidth : Nat) (source : List Char) : List Char :=
  (Arrow.braced (expand tabWidth source)).text.map fun c => if c = '\n' then ' ' else c

end PlainMath.Source
