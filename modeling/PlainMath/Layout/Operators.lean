import PlainMath.Layout.Scripts

/-! Operators whose drawing depends on where they stand: the invisible product
inside clusters, glyphs that the folding of scripts and products has left
behind, and marks that are raised behind an operand. -/
namespace PlainMath.Layout

def invisibleProduct : Tree → Tree
  | .cluster elements => .cluster (elements.filter (!·.isOperator Glyph.invisibleProduct))
  | tree => tree

/-- The product that is still there is a visible dot, and a superscript sign
that found no operand is a logical and. -/
def leftover (symbol : String) : String :=
  if symbol = Glyph.invisibleProduct then Glyph.dotProduct
  else if symbol = Glyph.superscript then Glyph.logicalAnd
  else symbol

/-- An exclamation mark that opens a cluster is a logical not. -/
def operatorMeaning : Tree → Tree
  | .operator symbol => .operator (leftover symbol)
  | .cluster (.operator symbol :: rest) =>
    .cluster (.operator (if symbol = Glyph.factorial then Glyph.logicalNot else symbol) :: rest)
  | tree => tree

def primes (count : Nat) : Tree :=
  .operator (String.ofList (List.replicate count Glyph.prime.toList).flatten)

def raisePrimes (base : Tree) (count : Nat) : Tree :=
  if count = 0 then base else raise base (primes count)

/-- Raises the run of primes behind the target, and a mark behind it that ends
the cluster. `count` primes have been seen so far. -/
def foldMarks (target : Tree) (count : Nat) : List Tree → List Tree
  | [] => [raisePrimes target count]
  | next :: rest =>
    if target.isOperand && next.isOperator Glyph.prime then
      foldMarks target (count + 1) rest
    else
      let raised := raisePrimes target count
      if raised.isOperand && rest.isEmpty && next.operator?.any Glyph.isFinalMark then
        [raise raised next]
      else
        raised :: foldMarks next 0 rest

def operatorSuperscripts : Tree → Tree
  | .cluster (first :: rest) => .cluster (foldMarks first 0 rest)
  | tree => tree

open PlainMath.Tree

theorem listWeight_filter_le (keep : Tree → Bool) (elements : List Tree) :
    listWeight (elements.filter keep) ≤ listWeight elements := by
  induction elements with
  | nil => simp
  | cons element elements ih =>
    rw [List.filter_cons]
    split <;> simp only [listWeight] <;> omega

theorem weight_invisibleProduct_le (tree : Tree) :
    (invisibleProduct tree).weight ≤ tree.weight := by
  unfold invisibleProduct
  split
  · rename_i elements
    have := listWeight_filter_le (!·.isOperator Glyph.invisibleProduct) elements
    simp only [weight]; omega
  · exact Nat.le_refl _

theorem weight_operatorMeaning (tree : Tree) : (operatorMeaning tree).weight = tree.weight := by
  unfold operatorMeaning
  split <;> simp only [weight, listWeight]

theorem weight_raisePrimes_le (base : Tree) (count : Nat) :
    (raisePrimes base count).weight ≤ base.weight + 2 * count := by
  unfold raisePrimes
  split
  · omega
  · have := weight_raise_le base (primes count)
    simp only [primes, weight] at this ⊢
    omega

theorem listWeight_foldMarks_le (target : Tree) (count : Nat) (rest : List Tree) :
    listWeight (foldMarks target count rest) ≤
      1 + target.weight + 2 * count + listWeight rest := by
  induction rest generalizing target count with
  | nil =>
    have := weight_raisePrimes_le target count
    simp only [foldMarks, listWeight]
    omega
  | cons next rest ih =>
    have := weight_raisePrimes_le target count
    have := weight_pos next
    unfold foldMarks
    split
    · have := ih target (count + 1)
      simp only [listWeight]
      omega
    · dsimp only
      split
      · have := weight_raise_le (raisePrimes target count) next
        simp only [listWeight]
        omega
      · have := ih next 0
        simp only [listWeight]
        omega

theorem weight_operatorSuperscripts_le (tree : Tree) :
    (operatorSuperscripts tree).weight ≤ tree.weight := by
  unfold operatorSuperscripts
  split
  · rename_i first rest
    have := listWeight_foldMarks_le first 0 rest
    simp only [weight, listWeight]
    omega
  · exact Nat.le_refl _

end PlainMath.Layout
