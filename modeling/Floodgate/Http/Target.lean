/-
  Floodgate/Http/Target.lean
  ==========================
  **Request targets.**  A target comes in four forms: a path with an optional
  query, an absolute address (whose empty path stands for `/`), an authority alone
  (which has no path), and `*`.  A fragment is not part of it.  A query that is
  present and empty differs from none.
-/

namespace Floodgate.Http

structure Target where
  path : String
  query : Option String
deriving DecidableEq, Repr

namespace Target

/-- Path and query of a text that starts where the path does; an empty path is `/`. -/
def ofPathAndQuery (cs : List Char) : Target :=
  let cs := cs.takeWhile (· != '#')
  let path := cs.takeWhile (· != '?')
  { path := if path.isEmpty then "/" else String.ofList path
    query := match cs.dropWhile (· != '?') with
      | [] => none
      | _ :: q => some (String.ofList q) }

def inScheme (c : Char) : Bool := c.isAlphanum || c = '+' || c = '-' || c = '.'

/-- What follows the authority of an absolute address, if the text is one. -/
def afterAuthority? (cs : List Char) : Option (List Char) :=
  match cs.dropWhile inScheme with
  | ':' :: '/' :: '/' :: rest => some (rest.dropWhile fun c => c != '/' && c != '?' && c != '#')
  | _ => none

def ofText (s : String) : Target :=
  match s.toList with
  | ['*'] => ⟨"*", none⟩
  | '/' :: rest => ofPathAndQuery ('/' :: rest)
  | cs =>
    match afterAuthority? cs with
    | some rest => ofPathAndQuery rest
    | none => ⟨"", none⟩

end Target

end Floodgate.Http
