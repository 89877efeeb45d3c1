import OrderLifecycle.Framework.RegexReader

open Framework

namespace OrderLifecycle.Http

/-- A JavaScript string, as its characters. -/
abbrev Text := List Char

/-- The white space and line terminators that `trim` takes off. -/
def isWhiteSpace (c : Char) : Bool :=
  ['\t', '\n', '\x0b', '\x0c', '\r', ' ', '\u00a0', '\u1680', '\u2028', '\u2029', '\u202f', '\u205f',
    '\u3000', '\ufeff'].contains c || ('\u2000' ≤ c && c ≤ '\u200a')

def trim (text : Text) : Text :=
  ((text.dropWhile isWhiteSpace).reverse.dropWhile isWhiteSpace).reverse

/-- `text.replace(/[.*+?^${}()|[\]\\]/g, '\\$&')`, character by character. -/
def escapeChar (c : Char) : Text :=
  if c ∈ ['.', '*', '+', '?', '^', '$', '\x7b', '\x7d', '(', ')', '|', '[', ']', '\\'] then ['\\', c]
  else [c]

def escapePattern (text : Text) : Text := text.flatMap escapeChar

/-- `text.replace(old, new)` for two strings: the first occurrence. -/
def replaceFirst (old new : Text) : Text → Text
  | [] => if old = [] then new else []
  | c :: cs =>
    if old.isPrefixOf (c :: cs) then new ++ (c :: cs).drop old.length
    else c :: replaceFirst old new cs

/-- An entry of the allow-list: a string, or a `RegExp` with the flag `i`. -/
inductive OriginMatcher
  | exact (origin : Text)
  | pattern (regex : Regex)
  deriving DecidableEq, Repr

/-- `\*\.` -/
def escapedWildcard : Text := ['\\', '*', '\\', '.']

/-- `([a-z0-9-]+\.)+` -/
def subdomainLabels : Text :=
  ['(', '[', 'a', '-', 'z', '0', '-', '9', '-', ']', '+', '\\', '.', ')', '+']

/-- `none` where `new RegExp` would throw. -/
def toOriginMatcher (entry : Text) : Option OriginMatcher :=
  if '*' ∉ entry then some (.exact entry)
  else
    let escaped := escapePattern entry
    let pattern := '^' :: (replaceFirst escapedWildcard subdomainLabels escaped ++ ['$'])
    (Regex.parse pattern).map .pattern

/-- The entries of `CORS_ORIGIN`, trimmed. -/
def corsEntries (raw : Text) : List Text :=
  ((raw.splitOn ',').map trim).filter fun entry => 0 < entry.length

def buildCorsOrigins (raw : Text) : Option (List OriginMatcher) :=
  (corsEntries raw).mapM toOriginMatcher

/-- How the flag `i` compares characters: by their upper case, where that does not take a character
into ASCII; `upper` is the upper case of the characters beyond ASCII. -/
def canonicalize (upper : Char → Char) (c : Char) : Char :=
  if c.toNat < 128 then c.toUpper
  else if (upper c).toNat < 128 then c
  else upper c

/-- What `cors` asks of an entry of the allow-list: `===` for a string, `test` for a `RegExp`. -/
def OriginMatcher.accepts (upper : Char → Char) : OriginMatcher → Text → Bool
  | exact entry, origin => origin == entry
  | pattern regex, origin => regex.test (canonicalize upper) origin

end OrderLifecycle.Http
