import HttpRouting.Text.Split

/-!
# Request targets

The target of a request is `*`, a path with an optional query, or an absolute
address with an authority.  Nothing in it is decoded.
-/

namespace HttpRouting

structure Target where
  host : Option String
  path : String
  query : Option String
  deriving DecidableEq, Repr

namespace Target

def maxBytes : Nat := 65534

def root : Target := ⟨none, "/", none⟩

def isPathChar (c : Char) : Bool :=
  let n := c.toNat
  n == 0x21 || n == 0x22 || (0x24 ≤ n && n ≤ 0x3B) || n == 0x3D ||
    (0x40 ≤ n && n ≤ 0x5F) || (0x61 ≤ n && n ≤ 0x7E) || 0x80 ≤ n

def isQueryChar (c : Char) : Bool :=
  let n := c.toNat
  n == 0x21 || (0x24 ≤ n && n ≤ 0x3B) || n == 0x3D || (0x3F ≤ n && n ≤ 0x7E) ||
    0x80 ≤ n

def isAuthorityChar (c : Char) : Bool :=
  c.isAlphanum || "!$&'()*+,-.:;=@[]_~".toList.contains c

def isSchemeChar (c : Char) : Bool :=
  c.isAlphanum || "+-.~".toList.contains c

/-- A path and query: the fragment is dropped, and a path that is missing is
the root. -/
def pathAndQuery (cs : List Char) : Option (String × Option String) :=
  let cs := cs.takeWhile (· ≠ '#')
  let path := cs.takeWhile (· ≠ '?')
  let shown := if path = [] then "/" else String.ofList path
  if path.all isPathChar then
    match cs.drop path.length with
    | [] => some (shown, none)
    | _ :: query =>
        if query.all isQueryChar then some (shown, some (String.ofList query)) else none
  else none

structure AuthorityScan where
  colons : Nat := 0
  opened : Bool := false
  closed : Bool := false
  percent : Bool := false
  endsWithAt : Bool := false

namespace AuthorityScan

/-- Reads one character; what stood before an `@` or inside brackets does not
count as host and port. -/
def step (s : AuthorityScan) (c : Char) : Option AuthorityScan :=
  let s := { s with endsWithAt := false }
  if c = ':' then
    if 8 ≤ s.colons then none else some { s with colons := s.colons + 1 }
  else if c = '[' then
    if s.percent || s.opened then none else some { s with opened := true }
  else if c = ']' then
    if !s.opened || s.closed then none
    else some { s with closed := true, colons := 0, percent := false }
  else if c = '@' then
    some { s with colons := 0, percent := false, endsWithAt := true }
  else if c = '%' then some { s with percent := true }
  else if isAuthorityChar c then some s
  else none

def accepts (s : AuthorityScan) : Bool :=
  s.opened == s.closed && s.colons ≤ 1 && !s.endsWithAt && !s.percent

end AuthorityScan

def isAuthority (cs : List Char) : Bool :=
  match cs.foldlM AuthorityScan.step {} with
  | some s => s.accepts
  | none => false

def hostOfAuthority (cs : List Char) : String :=
  let host := (cs.reverse.takeWhile (· ≠ '@')).reverse
  match host with
  | '[' :: _ => String.ofList (host.takeWhile (· ≠ ']') ++ [']'])
  | _ => String.ofList (host.takeWhile (· ≠ ':'))

def afterScheme (cs : List Char) : Option (List Char) :=
  let scheme := cs.takeWhile isSchemeChar
  match cs.drop scheme.length with
  | ':' :: '/' :: '/' :: rest => some rest
  | _ => none

def endsAuthority (c : Char) : Bool := c = '/' || c = '?' || c = '#'

def maxSchemeLength : Nat := 64

/-- An address with an authority: a bare authority has an empty path, and one
with a scheme must name a host. -/
def parseAddress (cs : List Char) : Option Target :=
  match afterScheme cs with
  | none =>
      if isAuthority cs then some ⟨some (hostOfAuthority cs), "", none⟩ else none
  | some rest =>
      let authority := rest.takeWhile (fun c => !endsAuthority c)
      if (cs.takeWhile isSchemeChar).length ≤ maxSchemeLength ∧ authority ≠ [] ∧
          isAuthority authority then do
        let (path, query) ← pathAndQuery (rest.drop authority.length)
        return ⟨some (hostOfAuthority authority), path, query⟩
      else none

def parse? (s : String) : Option Target :=
  if maxBytes < s.utf8ByteSize then none
  else
    match s.toList with
    | [] => none
    | ['*'] => some ⟨none, "*", none⟩
    | '/' :: rest => do
        let (path, query) ← pathAndQuery ('/' :: rest)
        return ⟨none, path, query⟩
    | cs => parseAddress cs

end Target

end HttpRouting
