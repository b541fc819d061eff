/-
  Floodgate/Proofs/Json/Records.lean
  ==================================
  **Reading a record.**  A record may be written with any of its fields, in any order
  and among members that it does not know.  `Layout.reads` says that nothing of this
  matters: what is read is what the fields that are written do to the record.

  For this, each field comes with the texts of its value and with what reading one of
  them does to the record (`Part`); a layout is a list of parts of different names whose
  effects may be exchanged.  A record is a field of another record by its layout alone, so
  nesting needs no proof of its own.
-/
import Floodgate.Proofs.Json.Values

namespace Floodgate.Json

/-! ### Parts and layouts -/

/-- A field of a record with the texts that its value may have; all of them do the same to
    the record when they are read. -/
structure Part (σ : Type) where
  name : String
  read : σ → List Char → Reading σ
  Text : List Char → Prop
  effect : σ → σ
  reads : ∀ s, Reads (read s) Text (effect s)

variable {σ α : Type}

def Part.field (p : Part σ) : Field σ := ⟨p.name.toList, p.read⟩

/-- A field that holds a value of its own. -/
def Part.of (name : String) {read : List Char → Reading α} {Text : List Char → Prop} {a : α}
    (h : Reads read Text a) (put : α → σ → σ) : Part σ where
  name
  read := (Field.of name read put).read
  Text
  effect := put a
  reads s ws cs rest hws hcs hrest := by simp [Field.of, h hws hcs hrest, Except.map]

/-- The parts of a record.  Each has its own name, and what two of them do to the record
    does not depend on their order. -/
structure Layout (σ : Type) where
  parts : List (Part σ)
  distinct : (parts.map Part.name).Nodup
  exchange : ∀ p ∈ parts, ∀ q ∈ parts, ∀ s, q.effect (p.effect s) = p.effect (q.effect s)

/-- The members of an object after its opening brace, and the closing one: any of the
    parts, which are listed in the order in which they are written, and members of other
    names that hold any value. -/
inductive Members (parts : List (Part σ)) : Bool → List (Part σ) → List Char → Prop where
  | closed {first : Bool} {ws : List Char} (hws : Blank ws) :
      Members parts first [] (ws ++ ['\x7d'])
  | known {first : Bool} {p : Part σ} {ps : List (Part σ)} {l q m t cs : List Char}
      (hl : Lead first l) (hp : p ∈ parts) (hq : Spells p.name.toList q) (hm : Mark ':' m)
      (ht : p.Text t) (h : Members parts false ps cs) :
      Members parts first (p :: ps) (l ++ '"' :: (q ++ '"' :: (m ++ (t ++ cs))))
  | unknown {first : Bool} {ps : List (Part σ)} {name l q m v cs : List Char}
      (hl : Lead first l) (hname : ∀ p ∈ parts, p.name.toList ≠ name) (hq : Spells name q)
      (hm : Mark ':' m) (hv : Valid .value v) (h : Members parts false ps cs) :
      Members parts first ps (l ++ '"' :: (q ++ '"' :: (m ++ (v ++ cs))))

namespace Layout

variable (L : Layout σ) (S : String → Bool)

/-- The text of an object that writes the parts of these names, each once, and no others. -/
def Writes (cs : List Char) : Prop :=
  ∃ ps body, ps.Perm (L.parts.filter fun p => S p.name) ∧ Members L.parts true ps body ∧
    cs = '\x7b' :: body

/-- What the parts of these names do to a record. -/
def apply (s : σ) : σ := L.parts.foldl (fun s p => if S p.name then p.effect s else s) s

end Layout

/-! ### Reading members -/

theorem Members.follows {parts ps : List (Part σ)} {cs : List Char}
    (h : Members parts false ps cs) (rest : List Char) : Follows (cs ++ rest) := by
  cases h with
  | closed hws =>
    rw [List.append_assoc]
    exact hws.follows_append (follows_cons (by decide) _)
  | known hl hp hq hm ht h =>
    rw [List.append_assoc]
    exact Mark.follows_append hl _
  | unknown hl hname hq hm hv h =>
    rw [List.append_assoc]
    exact Mark.follows_append hl _

theorem nextName_closed {first : Bool} {ws : List Char} (hws : Blank ws) (rest : List Char) :
    nextName first (ws ++ '\x7d' :: rest) = .ok (none, rest) := by
  simp [nextName, skipSpace_close hws (c := '\x7d') (by decide)]

theorem nextName_name {first : Bool} {l name q : List Char} (hl : Lead first l)
    (hq : Spells name q) (rest : List Char) :
    nextName first (l ++ '"' :: (q ++ '"' :: rest)) = .ok (some name, rest) := by
  cases first with
  | true =>
    simp [nextName, skipSpace_close hl (c := '"') (by decide), readString_append hq, Except.map]
  | false =>
    obtain ⟨v, hv, hcomma⟩ := Mark.skipSpace_append hl (by decide) ('"' :: (q ++ '"' :: rest))
    simp [nextName, hcomma, skipSpace_close hv (c := '"') (by decide), readString_append hq,
      Except.map]

theorem skipColon_append {m : List Char} (hm : Mark ':' m) (rest : List Char) :
    ∃ v, Blank v ∧ skipColon (m ++ rest) = .ok (v ++ rest) := by
  obtain ⟨v, hv, hcolon⟩ := hm.skipSpace_append (by decide) rest
  exact ⟨v, hv, by simp [skipColon, hcolon]⟩

/-- A part is found by its name. -/
theorem find_field {parts : List (Part σ)} (hdistinct : (parts.map Part.name).Nodup) {p : Part σ}
    (hp : p ∈ parts) :
    (parts.map Part.field).find? (fun f => f.name == p.name.toList) = some p.field := by
  induction parts with
  | nil => cases hp
  | cons q parts ih =>
    rw [List.map_cons, List.nodup_cons] at hdistinct
    rcases List.mem_cons.1 hp with rfl | hp
    · simp [Part.field]
    · have hne : q.name ≠ p.name := fun heq =>
        hdistinct.1 (heq ▸ List.mem_map_of_mem hp)
      simpa [Part.field, String.toList_inj, hne] using ih hdistinct.2 hp

theorem find_unknown {parts : List (Part σ)} {name : List Char}
    (h : ∀ p ∈ parts, p.name.toList ≠ name) :
    (parts.map Part.field).find? (fun f => f.name == name) = none := by
  simpa [Part.field] using h

/-- By induction on the members.  No part is written that has been seen or that is written
    again, so none is refused. -/
theorem readMembers_append {parts ps : List (Part σ)} (hdistinct : (parts.map Part.name).Nodup)
    {first : Bool} {cs : List Char} (h : Members parts first ps cs)
    (hps : (ps.map Part.name).Nodup) {seen : List (List Char)}
    (hseen : ∀ p ∈ ps, p.name.toList ∉ seen) (s : σ) (rest : List Char) {fuel : Nat}
    (hfuel : cs.length ≤ fuel) :
    readMembers (parts.map Part.field) false fuel first seen s (cs ++ rest) =
      .ok (ps.foldl (fun s p => p.effect s) s, rest) := by
  induction h generalizing seen s fuel with
  | closed hws =>
    rw [List.length_append, List.length_singleton] at hfuel
    obtain ⟨fuel, rfl⟩ := Nat.exists_eq_add_of_le' (show 1 ≤ fuel by omega)
    simp [readMembers, nextName_closed hws]
  | @known first p ps l q m t cs hl hp hq hm ht h ih =>
    simp only [List.length_append, List.length_cons] at hfuel
    obtain ⟨fuel, rfl⟩ := Nat.exists_eq_add_of_le' (show 1 ≤ fuel by omega)
    obtain ⟨v, hv, hcolon⟩ := skipColon_append hm (t ++ (cs ++ rest))
    have hname := nextName_name hl hq (m ++ (t ++ (cs ++ rest)))
    have hnew := hseen p (by simp)
    have hread := p.reads s hv ht (h.follows rest)
    rw [List.map_cons, List.nodup_cons] at hps
    have hseen' : ∀ r ∈ ps, r.name.toList ∉ p.name.toList :: seen := by
      intro r hr
      have hne : r.name ≠ p.name := fun heq => hps.1 (heq ▸ List.mem_map_of_mem hr)
      simpa [String.toList_inj, hne] using hseen r (by simp [hr])
    have hothers := ih hps.2 hseen' (p.effect s) (show cs.length ≤ fuel by omega)
    have hfind := find_field hdistinct hp
    simpa [readMembers, hname, hfind, hnew, hcolon, Part.field, hread] using hothers
  | @unknown first ps name l q m v cs hl hname hq hm hv h ih =>
    simp only [List.length_append, List.length_cons] at hfuel
    obtain ⟨fuel, rfl⟩ := Nat.exists_eq_add_of_le' (show 1 ≤ fuel by omega)
    obtain ⟨u, hu, hcolon⟩ := skipColon_append hm (v ++ (cs ++ rest))
    have hfirst := nextName_name hl hq (m ++ (v ++ (cs ++ rest)))
    have hskip := skipValue_append hv hu (h.follows rest)
    have hothers := ih hps hseen s (show cs.length ≤ fuel by omega)
    simp [readMembers, hfirst, find_unknown hname, hcolon, hskip, hothers]

/-- A record is read as what the parts that are written do to it, in whatever order they
    are written and whatever is written among them. -/
theorem Layout.reads (L : Layout σ) (S : String → Bool) (s : σ) :
    Reads (readRecord (L.parts.map Part.field) false s) (L.Writes S) (L.apply S s) := by
  rintro ws _ rest hws ⟨ps, body, hperm, hbody, rfl⟩ -
  have hps : (ps.map Part.name).Nodup :=
    ((hperm.map Part.name).nodup_iff).2 (L.distinct.sublist (List.filter_sublist.map _))
  have hmem {p : Part σ} (hp : p ∈ ps) : p ∈ L.parts :=
    List.mem_of_mem_filter (hperm.mem_iff.1 hp)
  have hfuel : body.length ≤ (body ++ rest).length + 1 := by
    rw [List.length_append]
    omega
  have hnew : ∀ p ∈ ps, p.name.toList ∉ [] := fun _ _ => List.not_mem_nil
  have hread := readMembers_append L.distinct hbody hps hnew s rest hfuel
  have horder : ps.foldl (fun s p => p.effect s) s = L.apply S s := by
    rw [hperm.foldl_eq' (fun p hp q hq s => L.exchange p (hmem hp) q (hmem hq) s) s,
      List.foldl_filter]
    rfl
  simpa [readRecord, skipSpace_close hws (c := '\x7b') (by decide), horder] using hread

end Floodgate.Json
