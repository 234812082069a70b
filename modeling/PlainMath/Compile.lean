import PlainMath.Grammar
import PlainMath.Layout.Pass
import PlainMath.Markup.OfTree
import PlainMath.Options
import PlainMath.Source

/-! From source text to the tree and to markup. Every text compiles. -/
namespace PlainMath

def preprocess (source : String) (tabWidth : Nat := defaultTabWidth) : String :=
  String.ofList (Source.flatten tabWidth source.toList)

namespace Tree

/-- The tree of a source as it is read, before layout. -/
def ofSource (source : String) (tabWidth : Nat := defaultTabWidth) : Tree :=
  parse (preprocess source tabWidth)

def rootMarkup (mode : DisplayMode) (tree : Tree) : Markup :=
  .element "math" (some ("display", mode.name)) [tree.markup]

def write (options : Options) (tree : Tree) : String :=
  (tree.rootMarkup options.mode).text options.style 0

end Tree

def compileTree (source : String) (options : Options) : Tree :=
  (Tree.ofSource source options.tabWidth).layout

def compile (source : String) (options : Options) : String :=
  (compileTree source options).write options

end PlainMath
