import QueueScaler.Text.Scanner
/-!
# Addresses of resources

The text of a URI and its parts. What stands before the path, the authority, names a host and
perhaps a port; from the path on the text is what a request asks for. A fragment is not part of
that.

## Main definitions

* `Http.Uri`: the forms of a URI.
* `Http.Uri.parse?`: reads one.
* `Http.Uri.scheme?`, `Http.Uri.authority?`: its parts.
* `Http.Authority.host`, `Http.Authority.port?`: the parts of an authority.
-/

namespace QueueScaler.Http

/-! ### Characters -/

/-- Whether a character may stand in a scheme. -/
def isSchemeChar (c : Char) : Bool := c.isAlphanum || "+-.~".toList.contains c

/-- Whether a character may stand in an authority. -/
def isAuthorityChar (c : Char) : Bool := c.isAlphanum || "!$%&'()*+,-.:;=@[]_~".toList.contains c

/-- Whether a character has a place in a URI at all: neither a blank nor a control. -/
def isGraphic (c : Char) : Bool := ' ' < c && c ≠ '\x7f'

/-- Whether a character may stand in a path. Characters beyond ASCII may, and so may quotes and
braces. -/
def isPathChar (c : Char) : Bool := isGraphic c && !"#<>?\x60".toList.contains c

/-- Whether a character may stand in a query. -/
def isQueryChar (c : Char) : Bool := isGraphic c && !"\"#<>".toList.contains c

/-! ### Authorities -/

/-- What has been seen of an authority so far. -/
structure AuthorityScan where
  /-- The colons that may introduce a port. -/
  colons : Nat := 0
  /-- Whether a bracket was opened. -/
  opened : Bool := false
  /-- Whether it was closed. -/
  closed : Bool := false
  /-- Whether a percent sign was seen that may belong to the host. -/
  percent : Bool := false

namespace AuthorityScan

/-- The most colons in a row of parts. -/
def maxColons : Nat := 8

/-- Looks at the next character. Colons and percent signs before an `@` belong to the user, and
those before a closing bracket to a numeric host; they are forgotten. -/
def step (s : AuthorityScan) (c : Char) : Option AuthorityScan :=
  if c = ':' then
    if maxColons ≤ s.colons then none else some { s with colons := s.colons + 1 }
  else if c = '[' then
    if s.percent ∨ s.opened then none else some { s with opened := true }
  else if c = ']' then
    if ¬ s.opened ∨ s.closed then none
    else some { s with closed := true, colons := 0, percent := false }
  else if c = '@' then some { s with colons := 0, percent := false }
  else if c = '%' then some { s with percent := true }
  else if isAuthorityChar c then some s
  else none

/-- Whether the authority may end here. -/
def complete (s : AuthorityScan) : Bool :=
  s.opened == s.closed && decide (s.colons ≤ 1) && !s.percent

end AuthorityScan

namespace Authority

/-- Whether a text is an authority. -/
def isValid (cs : List Char) : Bool :=
  match cs.foldlM AuthorityScan.step {} with
  | none => false
  | some s => s.complete && cs.getLast? ≠ some '@'

/-- What follows the last occurrence of a character. -/
def afterLast? (c : Char) : List Char → Option (List Char)
  | [] => none
  | d :: rest =>
    match afterLast? c rest with
    | some found => some found
    | none => if d = c then some rest else none

/-- The host: what follows the user, up to the port. A numeric host keeps its brackets. -/
def host (cs : List Char) : List Char :=
  match (afterLast? '@' cs).getD cs with
  | '[' :: rest => '[' :: rest.takeWhile (· ≠ ']') ++ [']']
  | named => named.takeWhile (· ≠ ':')

/-- The port: the number after the last colon, if it is one. -/
def port? (cs : List Char) : Option Nat := (afterLast? ':' cs).bind (Digits.count? 65536)

end Authority

/-! ### URIs -/

/-- The forms of a URI. -/
inductive Uri where
  /-- A path, perhaps with a query, or the asterisk. -/
  | path (target : List Char)
  /-- Nothing but an authority. -/
  | authorityOnly (authority : List Char)
  /-- A scheme, an authority, and what a request asks for. -/
  | absolute (scheme authority target : List Char)
  deriving DecidableEq, Repr

namespace Uri

/-- The longest URI, in bytes. -/
def maxLength : Nat := 65534

/-- The longest scheme. -/
def maxSchemeLength : Nat := 64

/-- The scheme in front and what follows its colon and slashes. -/
def splitScheme? (cs : List Char) : Option (List Char × List Char) :=
  (Scanner.literal? "://".toList (cs.dropWhile isSchemeChar)).map fun rest ↦
    (cs.takeWhile isSchemeChar, rest)

/-- A scheme as it counts: the well-known ones in lower case. -/
def canonicalScheme (cs : List Char) : List Char :=
  let lower := cs.map Char.toLower
  if lower = "http".toList ∨ lower = "https".toList then lower else cs

/-- Whether a character belongs to the authority as far as its end is concerned. -/
def inAuthority (c : Char) : Bool := c ≠ '/' && c ≠ '?' && c ≠ '#'

/-- The path and the query at the front, without a fragment. -/
def target? (cs : List Char) : Option (List Char) :=
  let target := cs.takeWhile (· ≠ '#')
  let query := (target.dropWhile (· ≠ '?')).drop 1
  if (target.takeWhile (· ≠ '?')).all isPathChar ∧ query.all isQueryChar then some target else none

/-- What follows the scheme of an absolute URI. An empty path is a slash. -/
def absolute? (scheme cs : List Char) : Option Uri :=
  let authority := cs.takeWhile inAuthority
  if scheme.length ≤ maxSchemeLength ∧ ¬ authority.isEmpty ∧ Authority.isValid authority then
    (target? (cs.dropWhile inAuthority)).map fun target ↦
      .absolute (canonicalScheme scheme) authority (if target.isEmpty then ['/'] else target)
  else none

/-- Reads a URI. -/
def parse? (s : String) : Option Uri :=
  if maxLength < s.utf8ByteSize then none
  else
    match s.toList with
    | [] => none
    | ['*'] => some (.path ['*'])
    | '/' :: rest => (target? ('/' :: rest)).map .path
    | cs =>
      match splitScheme? cs with
      | some (scheme, rest) => absolute? scheme rest
      | none => if cs.all inAuthority ∧ Authority.isValid cs then some (.authorityOnly cs) else none

/-- The scheme. -/
def scheme? : Uri → Option (List Char)
  | .absolute scheme _ _ => some scheme
  | _ => none

/-- The authority. -/
def authority? : Uri → Option (List Char)
  | .path _ => none
  | .authorityOnly authority => some authority
  | .absolute _ authority _ => some authority

end Uri

end QueueScaler.Http
