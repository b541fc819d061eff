/-
  Floodgate/Gzip/Huffman.lean
  ===========================
  **Prefix codes.**  A code is given by the lengths of its code words alone: shorter
  words come first, words of one length in the order of their symbols.  Lengths that
  minimise the size of a text are found from the counts of its symbols: again and
  again the two lightest nodes are joined, a leaf before a joined node of the same
  weight.  Lengths beyond a limit are cut, at the cost of making other words longer.
-/
import Floodgate.Gzip.Bits

namespace Floodgate.Gzip

/-! ### Lengths from counts -/

/-- A node under construction: its weight and the number of leaves at each depth below
    it, from depth zero on. -/
structure Node where
  weight : Nat
  leaves : List Nat
deriving DecidableEq, Repr

/-- Adds two lists item by item; the rest of the longer one is kept. -/
def addLists : List Nat → List Nat → List Nat
  | [], ys => ys
  | xs, [] => xs
  | x :: xs, y :: ys => (x + y) :: addLists xs ys

def Node.join (a b : Node) : Node := ⟨a.weight + b.weight, 0 :: addLists a.leaves b.leaves⟩

/-- Takes the lightest node out of leaves and joined nodes, both in ascending order. -/
def lightest? : List Node → List Node → Option (Node × List Node × List Node)
  | [], [] => none
  | l :: ls, [] => some (l, ls, [])
  | [], j :: js => some (j, [], js)
  | l :: ls, j :: js =>
    if j.weight < l.weight then some (j, l :: ls, js) else some (l, ls, j :: js)

/-- Joins the two lightest nodes until one is left; `fuel` bounds the number of joins. -/
def joinAll : Nat → List Node → List Node → Option Node
  | 0, leaves, joined => (lightest? leaves joined).map Prod.fst
  | fuel + 1, leaves, joined =>
    match lightest? leaves joined with
    | none => none
    | some (a, leaves, joined) =>
      match lightest? leaves joined with
      | none => some a
      | some (b, leaves, joined) => joinAll fuel leaves (joined ++ [a.join b])

/-- Number of code words of each length, from length zero on, for counts in ascending
    order.  A single symbol has a word of one bit. -/
def wordsPerLength (counts : List Nat) : List Nat :=
  match counts with
  | [] => []
  | [_] => [0, 1]
  | counts =>
    match joinAll counts.length (counts.map fun n => ⟨n, [1]⟩) [] with
    | none => []
    | some root => root.leaves

/-- The room that code words take, a word of the greatest length taking one. -/
def roomTaken (limit : Nat) (perLength : List Nat) : Nat :=
  perLength.zipIdx.foldl (fun room (n, length) =>
    if length = 0 then room else room + n * Nat.pow 2 (limit - length)) 0

/-- Takes a word of the greatest length and puts it beside one that is shorter. -/
def lengthenOne (limit : Nat) (perLength : List Nat) : List Nat :=
  let shorter := (perLength.take limit).zipIdx.filter fun (n, length) => n != 0 && length != 0
  match shorter.getLast? with
  | none => perLength
  | some (_, length) =>
    ((perLength.modify limit (· - 1)).modify length (· - 1)).modify (length + 1) (· + 2)

def cutTo (limit : Nat) (perLength : List Nat) : List Nat :=
  if perLength.length ≤ limit + 1 then perLength
  else
    let cut := perLength.take limit ++ [(perLength.drop limit).foldl (· + ·) 0]
    Nat.repeat (lengthenOne limit) (roomTaken limit cut - Nat.pow 2 limit) cut

/-- The length of every symbol's code word, zero for symbols that do not occur.  The
    rarest symbols get the longest words. -/
def codeLengths (limit : Nat) (counts : List Nat) : List Nat :=
  let used := counts.zipIdx.filter fun (n, _) => n != 0
  let sorted := used.mergeSort fun a b => decide (a.1 ≤ b.1)
  let perLength := cutTo limit (wordsPerLength (sorted.map Prod.fst))
  let longestFirst := perLength.zipIdx.reverse.flatMap fun (n, length) => List.replicate n length
  let assigned := (sorted.map Prod.snd).zip longestFirst
  (assigned.foldl (fun (lengths : Array Nat) (symbol, length) => lengths.setIfInBounds symbol length)
    (Array.replicate counts.length 0)).toList

/-! ### Words from lengths -/

def longestWord : Nat := 15

def wordsOf (lengths : List Nat) (length : Nat) : Nat :=
  if length = 0 then 0 else lengths.count length

/-- The first word of a length, as a number whose highest bit comes first. -/
def firstWord (lengths : List Nat) : Nat → Nat
  | 0 => 0
  | length + 1 => (firstWord lengths length + wordsOf lengths length) * 2

def reversed : Nat → Nat → Nat
  | 0, _ => 0
  | width + 1, n => n % 2 * Nat.pow 2 width + reversed width (n / 2)

/-- The words of a code, for every symbol; `next` holds the next word of each length. -/
def wordsFrom : List Nat → Array Nat → Array Bits → Array Bits
  | [], _, done => done
  | length :: rest, next, done =>
    let word := next.getD length 0
    wordsFrom rest (next.setIfInBounds length (word + 1))
      (done.push ⟨if length = 0 then 0 else reversed length word, length⟩)

def codeWords (lengths : List Nat) : Array Bits :=
  let next := (List.range (longestWord + 1)).map (firstWord lengths)
  wordsFrom lengths next.toArray #[]

/-! ### Reading words -/

/-- A code as it is read: for every length the first word and the symbols in order. -/
structure Decoder where
  rows : List (Nat × List Nat)

def Decoder.ofLengths (lengths : List Nat) : Decoder :=
  let symbols := lengths.zipIdx
  ⟨(List.range (longestWord + 1)).drop 1 |>.map fun length =>
    (firstWord lengths length, (symbols.filter fun (l, _) => l == length).map Prod.snd)⟩

/-- Reads a symbol; `word` is what has been read of its word. -/
def readSymbolFrom (word : Nat) (s : BitSource) : List (Nat × List Nat) → Option (Nat × BitSource)
  | [] => none
  | (first, symbols) :: rest =>
    match s.bit? with
    | none => none
    | some (b, s) =>
      let word := word * 2 + b
      if first ≤ word then
        match symbols[word - first]? with
        | some symbol => some (symbol, s)
        | none => readSymbolFrom word s rest
      else readSymbolFrom word s rest

def Decoder.symbol? (d : Decoder) (s : BitSource) : Option (Nat × BitSource) :=
  readSymbolFrom 0 s d.rows

end Floodgate.Gzip
