/-
  Floodgate/Observe/Measurement.lean
  ==================================
  **Measurements.**  Stages count things, set gauges and take samples, each under a
  name and labels.  The board keeps what they add up to: the sum of a counter, the
  last value of a gauge, all samples.
-/

namespace Floodgate

/-- What a measurement is about, as name and value of each label. -/
abbrev Labels := List (String × String)

inductive Measurement where
  | counter (name : String) (labels : Labels) (amount : Nat)
  | gauge (name : String) (labels : Labels) (value : Float)
  | sample (name : String) (labels : Labels) (value : Float)

/-- What the measurements of one kind, name and set of labels add up to. -/
inductive Reading where
  | total (amount : Nat)
  | last (value : Float)
  | samples (values : List Float)

structure Gauged where
  name : String
  labels : Labels
  reading : Reading

/-- Everything measured so far, a row per kind, name and labels. -/
abbrev Board := List Gauged

namespace Board

/-- Changes the first row that takes a measurement, or adds a new row. -/
def update (take : Gauged → Option Reading) (fresh : Gauged) : Board → Board
  | [] => [fresh]
  | row :: rest =>
    match take row with
    | some reading => { row with reading } :: rest
    | none => row :: update take fresh rest

def about (name : String) (labels : Labels) (row : Gauged) : Bool :=
  row.name == name && row.labels == labels

def measure (board : Board) : Measurement → Board
  | .counter name labels amount =>
    board.update
      (fun row => match row.reading with
        | .total n => if about name labels row then some (.total (n + amount)) else none
        | _ => none)
      ⟨name, labels, .total amount⟩
  | .gauge name labels value =>
    board.update
      (fun row => match row.reading with
        | .last _ => if about name labels row then some (.last value) else none
        | _ => none)
      ⟨name, labels, .last value⟩
  | .sample name labels value =>
    board.update
      (fun row => match row.reading with
        | .samples xs => if about name labels row then some (.samples (xs ++ [value])) else none
        | _ => none)
      ⟨name, labels, .samples [value]⟩

def measureAll (board : Board) (ms : List Measurement) : Board := ms.foldl measure board

end Board

end Floodgate
