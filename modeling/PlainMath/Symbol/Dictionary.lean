import PlainMath.Glyph
import PlainMath.Symbol.Table

/-! The two dictionaries of the notation: how identifiers and how operators are
spelled. Letters that are operator words too are identifiers again behind a
backslash. -/
namespace PlainMath.Symbol

def identifierEntries : List (String × String) :=
  [ ("\\X", "X"), ("\\v", "v"), ("\\V", "V"), ("\\o", "o"), ("null", "&empty;"),
    ("empty", "&empty;"), ("inf", "&infin;"), ("deg", "&deg;"), ("degree", "&deg;"),
    ("degrees", "&deg;"), ("°", "&deg;"), ("Im", "&image;"), ("Re", "&real;"),
    ("aleph", "&alefsym;"), ("Aleph", "&alefsym;"), ("Alpha", "&Alpha;"), ("Beta", "&Beta;"),
    ("Gamma", "&Gamma;"), ("Delta", "&Delta;"), ("Epsilon", "&Epsilon;"), ("Zeta", "&Zeta;"),
    ("Eta", "&Eta;"), ("Theta", "&Theta;"), ("Iota", "&Iota;"), ("Kappa", "&Kappa;"),
    ("Lambda", "&Lambda;"), ("Mu", "&Mu;"), ("Nu", "&Nu;"), ("Xi", "&Xi;"),
    ("Omicron", "&Omicron;"), ("Pi", "&Pi;"), ("Rho", "&Rho;"), ("Sigma", "&Sigma;"),
    ("Tau", "&Tau;"), ("Upsilon", "&Upsilon;"), ("Phi", "&Phi;"), ("Chi", "&Chi;"),
    ("Psi", "&Psi;"), ("Omega", "&Omega;"), ("alpha", "&alpha;"), ("beta", "&beta;"),
    ("gamma", "&gamma;"), ("delta", "&delta;"), ("epsilon", "&epsilon;"), ("zeta", "&zeta;"),
    ("eta", "&eta;"), ("theta", "&theta;"), ("iota", "&iota;"), ("kappa", "&kappa;"),
    ("lambda", "&lambda;"), ("mu", "&mu;"), ("nu", "&nu;"), ("xi", "&xi;"),
    ("omicron", "&omicron;"), ("pi", "&pi;"), ("rho", "&rho;"), ("sigma", "&sigma;"),
    ("tau", "&tau;"), ("upsilon", "&upsilon;"), ("phi", "&phi;"), ("chi", "&chi;"),
    ("psi", "&psi;"), ("omega", "&omega;"), ("\\theta", "&thetasym;"), ("\\pi", "&piv;"),
    ("\\sigma", "&sigmaf;"), ("\\upsilon", "&upsih;"), ("\\phi", "&phiv;"), ("\\p", "&weierp;") ]

def operatorEntries : List (String × String) :=
  [ ("_", Glyph.subscript), ("^", Glyph.superscript), ("/", Glyph.fractionBar),
    (".", Glyph.invisibleProduct), ("\\.", Glyph.dotProduct), ("!", Glyph.factorial),
    (":", "&af;"), ("..", Glyph.range), ("sqrt", Glyph.radical), ("root", Glyph.radical),
    ("overbrace", Glyph.overbrace), ("underbrace", Glyph.underbrace), ("lim", "lim"),
    ("det", "det"), ("\\P", "P"), ("\\C", "C"), ("\\F", "F"), ("\\d", Glyph.differential),
    ("X", "&times;"), ("cross", "&times;"), ("not", Glyph.logicalNot), ("¬", Glyph.logicalNot),
    ("grad", "&nabla;"), ("div", "&nabla;&sdot;"), ("curl", "&nabla;&times;"), ("in", "&isin;"),
    ("!in", "&notin;"), ("¬in", "&notin;"), ("sum", "&sum;"), ("Sum", "&sum;"),
    ("prod", "&prod;"), ("Prod", "&prod;"), ("prop", "&prop;"), ("and", Glyph.logicalAnd),
    ("or", "&or;"), ("v", "&or;"), ("V", "&or;"), ("\\v", "&or;"), ("cup", "&cup;"),
    ("cap", "&cap;"), ("ang", "&ang;"), ("therefore", "&there4;"), ("'", Glyph.prime),
    ("\\'", Glyph.prime), ("%", Glyph.percent), ("...", Glyph.ellipsis),
    ("\\...", Glyph.ellipsis), ("\\A:", "&forall;"), ("\\E:", "&exist;"), ("\\:", ":"),
    ("\\;", ";"), ("-", Glyph.minus), ("+", Glyph.plus), ("+/-", "&plusmn;"),
    ("*", Glyph.asterisk), ("@", "&part;"), ("$", "&int;"), ("$$", "&Int;"), ("$$$", "&iiint;"),
    ("=", "="), ("==", "="), ("!=", "&ne;"), ("¬=", "&ne;"), ("!==", "&ne;"), ("¬==", "&ne;"),
    ("===", "&equiv;"), ("~", "&sim;"), ("~~", "&asymp;"), ("~=", "&sime;"), ("~==", "&cong;"),
    ("<", "&lt;"), (">", "&gt;"), ("<=", "&le;"), (">=", "&ge;"), ("<<", "&ll;"), (">>", "&gg;"),
    ("<<<", "&Ll;"), (">>>", "&Gg;"), (":<:", "&sub;"), (":>:", "&sup;"), (":<=:", "&sube;"),
    (":>=:", "&supe;"), (":!<:", "&nsub;"), (":¬<:", "&nsub;"), ("_|_", "&perp;"),
    ("->", "&rarr;"), ("-->", "&rarr;"), ("<--", "&larr;"), ("<->", "&harr;"), ("==>", "&rArr;"),
    ("<==", "&lArr;"), ("<=>", "&hArr;"), ("o", "&compfn;"), ("||", "&par;"), ("|", "&mid;") ]

def identifiers : Table := Table.ofEntries identifierEntries

def operators : Table := Table.ofEntries operatorEntries

end PlainMath.Symbol
