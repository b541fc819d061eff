/-
  Floodgate/Proofs/Json/Written.lean
  ==================================
  **What is written can be read.**  The compact text of a value is one of the texts that
  the grammar allows: every string spells its characters (`spells_written`), an array of
  counts lists them (`countsText_written`), and an object that has a member for each part
  of a layout writes them all (`Layout.writes_written`).
-/
import Floodgate.Proofs.Json.Records

namespace Floodgate.Json

/-! ### Strings -/

theorem hexDigit_digitChar {v : Nat} (h : v < 16) : HexDigit (Nat.digitChar v) v := by
  have hall : ∀ v < 16, "0123456789abcdef".toList[v]? = some (Nat.digitChar v) := by decide
  exact .inl (hall v h)

theorem hex_hexPair {n : Nat} (h : n < 256) : Hex ('0' :: '0' :: hexPair n) n := by
  have hzero := hexDigit_digitChar (v := 0) (by decide)
  have hpair := Hex.digits hzero hzero (hexDigit_digitChar (Nat.mod_lt (n / 16) (by decide)))
    (hexDigit_digitChar (Nat.mod_lt n (by decide)))
  have hvalue : ((0 * 16 + 0) * 16 + n / 16 % 16) * 16 + n % 16 = n := by omega
  rw [hvalue] at hpair
  exact hpair

/-- Every character is written in a way that spells it. -/
theorem Spells.writtenChar_append {s q : List Char} (c : Char) (h : Spells s q) :
    Spells (c :: s) (writtenChar c ++ q) := by
  have hchar {d : Char} (heq : c.toNat = d.toNat) : c = d := Char.toNat_inj.1 heq
  rw [writtenChar.eq_def]
  split
  next hc =>
    subst hc
    exact .escape (by decide) h
  split
  next hc =>
    subst hc
    exact .escape (by decide) h
  split
  next hc =>
    subst hc
    exact .escape (by decide) h
  split
  next hc =>
    subst hc
    exact .escape (by decide) h
  split
  next hc =>
    subst hc
    exact .escape (by decide) h
  split
  next hc =>
    obtain rfl := hchar (d := '\x08') hc
    exact .escape (by decide) h
  split
  next hc =>
    obtain rfl := hchar (d := '\x0c') hc
    exact .escape (by decide) h
  split
  next hc =>
    have hunit := Spells.unit (hex_hexPair (n := c.toNat) (by omega)) (.inl (by omega)) h
    rwa [Char.ofNat_toNat] at hunit
  next hquote hslash _ _ _ _ _ hcontrol => exact .plain ⟨hquote, hslash, by omega⟩ h

theorem spells_written (s : List Char) : Spells s (s.flatMap writtenChar) := by
  induction s with
  | nil => exact .nil
  | cons c s ih =>
    rw [List.flatMap_cons]
    exact ih.writtenChar_append c

/-! ### Arrays of counts -/

theorem mark_single (m : Char) : Mark m [m] := ⟨[], [], .nil, .nil, rfl⟩

/-- The items of an array after one of them. -/
def writtenMore : List Value → List Char
  | [] => [']']
  | v :: vs => ',' :: writtenItems (v :: vs)

theorem writtenItems_cons (v : Value) (vs : List Value) :
    writtenItems (v :: vs) = v.written ++ writtenMore vs := by
  cases vs <;> rfl

theorem listed_writtenMore (ns : List Nat) : Listed false ns (writtenMore (ns.map .nat)) := by
  induction ns with
  | nil => exact .closed .nil
  | cons n ns ih =>
    rw [List.map_cons, writtenMore, writtenItems_cons]
    exact .item (mark_single ',').lead ih

theorem countsText_written (ns : List Nat) :
    CountsText ns (Value.array (ns.map .nat)).written := by
  refine ⟨writtenItems (ns.map .nat), ?_, rfl⟩
  cases ns with
  | nil => exact .closed .nil
  | cons n ns =>
    rw [List.map_cons, writtenItems_cons]
    exact .item lead_start (listed_writtenMore ns)

/-! ### Objects -/

/-- The members of an object after one of them. -/
def writtenOthers : List (String × Value) → List Char
  | [] => ['\x7d']
  | m :: ms => ',' :: writtenMembers (m :: ms)

theorem writtenMembers_cons (name : String) (v : Value) (ms : List (String × Value)) :
    writtenMembers ((name, v) :: ms) =
      '"' :: (name.toList.flatMap writtenChar ++ '"' :: (':' :: (v.written ++ writtenOthers ms))) := by
  cases ms <;> simp [writtenMembers, writtenString, writtenOthers]

variable {σ : Type}

/-- A member that writes a part. -/
def Part.WrittenAs (p : Part σ) (m : String × Value) : Prop := m.1 = p.name ∧ p.Text m.2.written

theorem Members.written_cons {parts ps : List (Part σ)} {p : Part σ} {m : String × Value}
    {ms : List (String × Value)} {first : Bool} {l : List Char} (hl : Lead first l) (hp : p ∈ parts)
    (hm : p.WrittenAs m) (h : Members parts false ps (writtenOthers ms)) :
    Members parts first (p :: ps) (l ++ writtenMembers (m :: ms)) := by
  obtain ⟨name, v⟩ := m
  obtain ⟨rfl, htext⟩ := hm
  rw [writtenMembers_cons]
  exact .known hl hp (spells_written _) (mark_single ':') htext h

theorem members_writtenOthers {parts ps : List (Part σ)} {ms : List (String × Value)}
    (h : List.Forall₂ Part.WrittenAs ps ms) (hps : ps ⊆ parts) :
    Members parts false ps (writtenOthers ms) := by
  induction h with
  | nil => exact .closed .nil
  | cons hm h ih =>
    rw [List.cons_subset] at hps
    exact .written_cons (mark_single ',').lead hps.1 hm (ih hps.2)

theorem members_written {parts ps : List (Part σ)} {ms : List (String × Value)}
    (h : List.Forall₂ Part.WrittenAs ps ms) (hps : ps ⊆ parts) :
    Members parts true ps (writtenMembers ms) := by
  cases h with
  | nil => exact .closed .nil
  | cons hm h =>
    rw [List.cons_subset] at hps
    exact .written_cons lead_start hps.1 hm (members_writtenOthers h hps.2)

/-- An object with a member for each part, in their order, writes them all. -/
theorem Layout.writes_written (L : Layout σ) {ms : List (String × Value)}
    (h : List.Forall₂ Part.WrittenAs L.parts ms) :
    L.Writes (fun _ => true) (Value.object ms).written :=
  ⟨L.parts, writtenMembers ms, by simp, members_written h (List.Subset.refl _), rfl⟩

end Floodgate.Json
