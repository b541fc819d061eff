/-
  Floodgate/Table.lean
  ====================
  **Small tables.**  A table holds a value per key as a list of pairs.  Putting a
  value in changes what is found under its key and nothing else (`get?_put`), and
  taking a key out leaves all others as they were (`get?_remove`).
-/

namespace Floodgate

/-- Values by key, at most one pair for each key. -/
abbrev Table (κ ν : Type) := List (κ × ν)

namespace Table

variable {κ ν : Type} [DecidableEq κ]

def get? (t : Table κ ν) (k : κ) : Option ν :=
  match t with
  | [] => none
  | (k', v) :: rest => if k' = k then some v else get? rest k

def put (t : Table κ ν) (k : κ) (v : ν) : Table κ ν :=
  match t with
  | [] => [(k, v)]
  | (k', v') :: rest => if k' = k then (k, v) :: rest else (k', v') :: put rest k v

def remove (t : Table κ ν) (k : κ) : Table κ ν := t.filter fun p => decide (p.1 ≠ k)

/-- The table with only those pairs whose value is to be kept. -/
def keep (t : Table κ ν) (wanted : ν → Bool) : Table κ ν := t.filter fun p => wanted p.2

def size (t : Table κ ν) : Nat := t.length

@[simp] theorem get?_nil (k : κ) : get? ([] : Table κ ν) k = none := rfl

/-- Under the key that was put in stands its value, under any other what was there. -/
theorem get?_put (t : Table κ ν) (k k' : κ) (v : ν) :
    (t.put k v).get? k' = if k = k' then some v else t.get? k' := by
  induction t with
  | nil => simp [put, get?]
  | cons p rest ih =>
    obtain ⟨j, w⟩ := p
    by_cases hj : j = k
    · by_cases hk : k = k' <;> simp [put, get?, hj, hk]
    · by_cases hk : k = k'
      · subst hk
        simp [put, get?, hj, ih]
      · by_cases hjk : j = k'
        · subst hjk
          simp [put, get?, hj, hk]
        · simp [put, get?, hj, hjk, hk, ih]

/-- A key that is taken out has no value, any other keeps what it had. -/
theorem get?_remove (t : Table κ ν) (k k' : κ) :
    (t.remove k).get? k' = if k = k' then none else t.get? k' := by
  induction t with
  | nil => simp [remove, get?]
  | cons p rest ih =>
    obtain ⟨j, w⟩ := p
    have hrest : remove rest k = List.filter (fun p => decide (p.1 ≠ k)) rest := rfl
    by_cases hj : j = k
    · subst hj
      by_cases hk : j = k'
      · subst hk
        simpa [remove, get?] using ih
      · simpa [remove, get?, hk] using ih
    · by_cases hjk : j = k'
      · subst hjk
        simp [remove, get?, hj, Ne.symm hj]
      · simpa [remove, get?, hj, hjk] using ih

/-! ### Keys -/

def keys (t : Table κ ν) : List κ := t.map Prod.fst

theorem mem_keys {t : Table κ ν} {k : κ} : k ∈ t.keys ↔ (t.get? k).isSome = true := by
  induction t with
  | nil => simp [keys]
  | cons p rest ih =>
    obtain ⟨j, w⟩ := p
    have hcons : keys ((j, w) :: rest) = j :: keys rest := rfl
    rw [hcons, List.mem_cons, ih]
    by_cases hj : j = k
    · simp [get?, hj]
    · simp [get?, hj, Ne.symm hj]

theorem keys_put (t : Table κ ν) (k : κ) (v : ν) :
    (t.put k v).keys = if k ∈ t.keys then t.keys else t.keys ++ [k] := by
  induction t with
  | nil => rfl
  | cons p rest ih =>
    obtain ⟨j, w⟩ := p
    by_cases hj : j = k
    · simp [put, keys, hj]
    · have hput : keys (put ((j, w) :: rest) k v) = j :: keys (put rest k v) := by
        simp [put, keys, hj]
      have hcons : keys ((j, w) :: rest) = j :: keys rest := rfl
      rw [hput, hcons, ih]
      by_cases hk : k ∈ keys rest <;> simp [hk, Ne.symm hj]

theorem nodup_keys_put {t : Table κ ν} (h : t.keys.Nodup) (k : κ) (v : ν) :
    (t.put k v).keys.Nodup := by
  rw [keys_put]
  split
  · exact h
  · next hk =>
    rw [List.nodup_append]
    refine ⟨h, by simp, ?_⟩
    intro j hj k' hk' heq
    rw [List.mem_singleton] at hk'
    subst heq hk'
    exact hk hj

theorem nodup_keys_remove {t : Table κ ν} (h : t.keys.Nodup) (k : κ) : (t.remove k).keys.Nodup :=
  (List.filter_sublist.map Prod.fst).nodup h

/-! ### What is kept -/

omit [DecidableEq κ] in
theorem nodup_keys_keep {t : Table κ ν} (h : t.keys.Nodup) (wanted : ν → Bool) :
    (t.keep wanted).keys.Nodup :=
  (List.filter_sublist.map Prod.fst).nodup h

/-- What is kept is found under the key it had. -/
theorem get?_keep {t : Table κ ν} (h : t.keys.Nodup) (wanted : ν → Bool) (k : κ) :
    (t.keep wanted).get? k = (t.get? k).filter wanted := by
  induction t with
  | nil => rfl
  | cons p rest ih =>
    obtain ⟨j, w⟩ := p
    obtain ⟨hfresh, hrest⟩ := List.nodup_cons.mp h
    have hkeep : keep ((j, w) :: rest) wanted =
        if wanted w then (j, w) :: keep rest wanted else keep rest wanted := by
      simp only [keep, List.filter_cons]
    rw [hkeep]
    by_cases hj : j = k
    · subst hj
      have hget : get? ((j, w) :: rest) j = some w := if_pos rfl
      rw [hget]
      cases hw : wanted w with
      | true => simp [get?, Option.filter, hw]
      | false =>
        -- the key stands nowhere else
        have hnone : get? rest j = none := by
          have := mt mem_keys.mpr hfresh
          simpa using this
        simp [ih hrest, hnone, Option.filter, hw]
    · by_cases hw : wanted w = true <;> simp [get?, hj, hw, ih hrest]

end Table

end Floodgate
