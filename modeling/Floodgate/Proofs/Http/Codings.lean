/-
  Floodgate/Proofs/Http/Codings.lean
  ==================================
  **Accept-Encoding is a list.**  What a request accepts is asked of the items of all its
  `Accept-Encoding` values in order (`codings`).  How the items are spread over fields,
  and what stands between them that says nothing about gzip, cannot be told from the
  answer: joining two values with a comma appends their items (`valueCodings_comma`), and the
  answer depends on the items that concern gzip only (`allowsGzip_of_concerns`).

  Of several items that name gzip the last one counts, so order does matter in general;
  it does not when there is at most one, and at most one wildcard.
-/
import Floodgate.Http.Coding
import Mathlib.Data.List.Perm.Basic

namespace Floodgate.Http

/-! ### The items of a request -/

def comma : UInt8 := 44

/-- A field for the codings that are accepted. -/
def acceptEncoding (value : Bytes) : Header := ⟨"accept-encoding", value⟩

/-- The items of a value; a value without text has none. -/
def valueCodings (value : Bytes) : List CodingItem := ((text? value).toList).flatMap codingItems

/-- The items of all values in order. -/
def codings (hs : Headers) : List CodingItem := (hs.texts "accept-encoding").flatMap codingItems

theorem acceptsGzip_eq (hs : Headers) : acceptsGzip hs = allowsGzip (codings hs) := rfl

theorem codings_append (hs hs' : Headers) : codings (hs ++ hs') = codings hs ++ codings hs' := by
  simp [codings, Headers.texts, Headers.values]

/-- The item is about gzip: it names it, or stands for every coding not named. -/
def CodingItem.concerns (i : CodingItem) : Bool := i.namesGzip || i.isWildcard

/-- A field that is no `Accept-Encoding` value with a text has no items. -/
theorem codings_cons_of_no_text {h : Header}
    (hsilent : h.name = "accept-encoding" → text? h.value = none) (hs : Headers) :
    codings (h :: hs) = codings hs := by
  by_cases hname : h.name = "accept-encoding"
  · simp [codings, Headers.texts, Headers.values, hname, hsilent hname]
  · simp [codings, Headers.texts, Headers.values, hname]

theorem codings_acceptEncoding (value : Bytes) (hs : Headers) :
    codings (acceptEncoding value :: hs) = valueCodings value ++ codings hs := by
  cases htext : text? value with
  | none =>
    rw [codings_cons_of_no_text (fun _ => htext), valueCodings, htext]
    rfl
  | some t =>
    simp [codings, Headers.texts, Headers.values, acceptEncoding, valueCodings, htext]

/-! ### Commas -/

theorem text?_isSome (value : Bytes) : (text? value).isSome = value.all visible := by
  unfold text?
  split <;> simp_all

/-- Two values can be joined to a text if both are texts. -/
theorem text?_comma (v w : Bytes) :
    (text? (v ++ comma :: w)).isSome = ((text? v).isSome && (text? w).isSome) := by
  have hcomma : visible comma = true := by decide
  simp [text?_isSome, hcomma]

/-- **Joining two values with a comma joins their items.** -/
theorem valueCodings_comma {v w : Bytes} (h : (text? (v ++ comma :: w)).isSome = true) :
    valueCodings (v ++ comma :: w) = valueCodings v ++ valueCodings w := by
  rw [text?_isSome] at h
  obtain ⟨hv, -, hw⟩ : v.all visible = true ∧ visible comma = true ∧ w.all visible = true := by
    simpa [List.all_append, and_assoc] using h
  have hchar : Char.ofNat comma.toNat = ',' := by decide
  simp [valueCodings, text?, h, hv, hw, codingItems, hchar, Text.split_append_sep]

/-- The items, with commas between them, are a text if all of them are. -/
theorem text?_intercalate (pieces : List Bytes) :
    (text? ([comma].intercalate pieces)).isSome = pieces.all fun v => (text? v).isSome := by
  induction pieces with
  | nil => rfl
  | cons v rest ih =>
    cases rest with
    | nil => simp
    | cons w rest =>
      rw [List.all_cons, ← ih, ← text?_comma]
      rfl

theorem valueCodings_intercalate {pieces : List Bytes} (nonempty : pieces ≠ [])
    (h : ∀ v ∈ pieces, (text? v).isSome = true) :
    valueCodings ([comma].intercalate pieces) = pieces.flatMap valueCodings := by
  induction pieces with
  | nil => exact absurd rfl nonempty
  | cons v rest ih =>
    cases rest with
    | nil => simp
    | cons w rest =>
      have htext : (text? ([comma].intercalate (v :: w :: rest))).isSome = true := by
        rw [text?_intercalate]
        exact List.all_eq_true.mpr h
      rw [List.flatMap_cons, ← ih (List.cons_ne_nil w rest) fun x hx =>
        h x (List.mem_cons_of_mem v hx)]
      exact valueCodings_comma htext

/-- Without items the value is empty, which is read as one item that names nothing. -/
theorem concerns_intercalate {pieces : List Bytes} (h : ∀ v ∈ pieces, (text? v).isSome = true) :
    (valueCodings ([comma].intercalate pieces)).filter CodingItem.concerns =
      (pieces.flatMap valueCodings).filter CodingItem.concerns := by
  by_cases hnone : pieces = []
  · rw [hnone]
    decide
  · rw [valueCodings_intercalate hnone h]

theorem valueCodings_of_no_text {pieces : List Bytes}
    (h : (pieces.all fun v => (text? v).isSome) = false) :
    valueCodings ([comma].intercalate pieces) = [] := by
  rw [← text?_intercalate] at h
  have hnone := Option.isSome_eq_false_iff.mp h
  rw [valueCodings, Option.isNone_iff_eq_none.mp hnone]
  rfl

/-- An item that says nothing about gzip makes no difference to a value. -/
theorem concerns_insert (before after : List Bytes) {item : Bytes}
    (htext : (text? item).isSome = true)
    (hsilent : ∀ i ∈ valueCodings item, i.concerns = false) :
    (valueCodings ([comma].intercalate (before ++ item :: after))).filter CodingItem.concerns =
      (valueCodings ([comma].intercalate (before ++ after))).filter CodingItem.concerns := by
  have hsame : ((before ++ item :: after).all fun v => (text? v).isSome) =
      (before ++ after).all fun v => (text? v).isSome := by
    simp [htext]
  have hitem : (valueCodings item).filter CodingItem.concerns = [] := by
    simpa [List.filter_eq_nil_iff] using hsilent
  cases hall : (before ++ after).all fun v => (text? v).isSome with
  | false =>
    rw [valueCodings_of_no_text hall, valueCodings_of_no_text (hsame.trans hall)]
  | true =>
    rw [concerns_intercalate (List.all_eq_true.mp hall),
      concerns_intercalate (List.all_eq_true.mp (hsame.trans hall))]
    simp [hitem]

/-- The order of the items of a value is the order of its pieces. -/
theorem valueCodings_perm {pieces pieces' : List Bytes} (h : pieces.Perm pieces') :
    (valueCodings ([comma].intercalate pieces)).Perm
      (valueCodings ([comma].intercalate pieces')) := by
  by_cases hnone : pieces = []
  · subst hnone
    rw [List.nil_perm.mp h]
  · have hsame : (pieces.all fun v => (text? v).isSome) =
        pieces'.all fun v => (text? v).isSome := by
      rw [Bool.eq_iff_iff, List.all_eq_true, List.all_eq_true]
      simp only [h.mem_iff]
    cases hall : pieces.all fun v => (text? v).isSome with
    | false =>
      rw [valueCodings_of_no_text hall, valueCodings_of_no_text (hsame.symm.trans hall)]
    | true =>
      have hnone' : pieces' ≠ [] := fun h' => hnone (List.perm_nil.mp (h' ▸ h))
      rw [valueCodings_intercalate hnone (List.all_eq_true.mp hall),
        valueCodings_intercalate hnone' (List.all_eq_true.mp (hsame.symm.trans hall))]
      exact h.flatMap_right _

/-! ### What the answer depends on -/

variable {items items' : List CodingItem}

theorem not_isWildcard_of_namesGzip {i : CodingItem} (h : i.namesGzip = true) :
    i.isWildcard = false := by
  cases hwild : i.isWildcard with
  | false => rfl
  | true =>
    rw [CodingItem.namesGzip, beq_iff_eq.mp hwild] at h
    exact absurd h (by decide)

/-- Lists with the same items of one kind have the same items of a narrower kind. -/
theorem filter_eq_of_imp {p q : CodingItem → Bool} (himp : ∀ i, p i = true → q i = true)
    (h : items.filter q = items'.filter q) : items.filter p = items'.filter p := by
  have hboth : ∀ i, (p i && q i) = p i := by
    intro i
    cases hp : p i with
    | false => rfl
    | true => exact himp i hp
  have hkept := congrArg (List.filter p) h
  simpa only [List.filter_filter, hboth] using hkept

/-- **Only the items that concern gzip count.** -/
theorem allowsGzip_of_concerns
    (h : items.filter CodingItem.concerns = items'.filter CodingItem.concerns) :
    allowsGzip items = allowsGzip items' := by
  have hgzip : items.filter CodingItem.namesGzip = items'.filter CodingItem.namesGzip :=
    filter_eq_of_imp (fun i hi => by simp [CodingItem.concerns, hi]) h
  have hwild : items.filter CodingItem.isWildcard = items'.filter CodingItem.isWildcard :=
    filter_eq_of_imp (fun i hi => by simp [CodingItem.concerns, hi]) h
  rw [allowsGzip, allowsGzip, hgzip, hwild]

/-- Items that occur once at most are the same in any order. -/
theorem filter_eq_of_perm {p : CodingItem → Bool} (h : items.Perm items')
    (once : items.countP p ≤ 1) : items.filter p = items'.filter p := by
  have hperm := h.filter p
  rw [List.countP_eq_length_filter] at once
  cases hfilter : items.filter p with
  | nil => exact (List.nil_perm.mp (hfilter ▸ hperm)).symm
  | cons i rest =>
    obtain rfl : rest = [] := by
      rw [hfilter] at once
      exact List.length_eq_zero_iff.mp (Nat.le_zero.mp (Nat.le_of_succ_le_succ once))
    exact List.singleton_perm.mp (hfilter ▸ hperm)

/-- **Without repetitions order does not matter.** -/
theorem allowsGzip_perm (h : items.Perm items') (gzipOnce : items.countP CodingItem.namesGzip ≤ 1)
    (wildcardOnce : items.countP CodingItem.isWildcard ≤ 1) :
    allowsGzip items = allowsGzip items' := by
  rw [allowsGzip, allowsGzip, filter_eq_of_perm h gzipOnce, filter_eq_of_perm h wildcardOnce]

/-- **Wildcards stand back for what names gzip.** -/
theorem allowsGzip_of_named (hnamed : items.any CodingItem.namesGzip = true)
    (h : (items.filter fun i => !i.isWildcard) = items'.filter fun i => !i.isWildcard) :
    allowsGzip items = allowsGzip items' := by
  have hgzip : items.filter CodingItem.namesGzip = items'.filter CodingItem.namesGzip :=
    filter_eq_of_imp (fun i hi => by simp [not_isWildcard_of_namesGzip hi]) h
  have hsome : items.filter CodingItem.namesGzip ≠ [] := by
    simpa [List.filter_eq_nil_iff] using hnamed
  rw [allowsGzip, allowsGzip, ← hgzip, List.getLast?_eq_some_getLast hsome]

/-! ### The answer -/

theorem codings_of_no_text {between : Headers}
    (h : ∀ f ∈ between, f.name = "accept-encoding" → text? f.value = none) :
    codings between = [] := by
  induction between with
  | nil => rfl
  | cons f between ih =>
    rw [codings_cons_of_no_text (h f List.mem_cons_self)]
    exact ih fun f' hf' => h f' (List.mem_cons_of_mem f hf')

/-- The items of a field are those of its value, if it is an `Accept-Encoding` field at all. -/
theorem concerns_field {f : Header}
    (hsilent : f.name = "accept-encoding" → ∀ i ∈ valueCodings f.value, i.concerns = false)
    (hs : Headers) :
    (codings (f :: hs)).filter CodingItem.concerns = (codings hs).filter CodingItem.concerns := by
  by_cases hname : f.name = "accept-encoding"
  · have hf : f = acceptEncoding f.value := congrArg (Header.mk · f.value) hname
    have hitems : (valueCodings f.value).filter CodingItem.concerns = [] := by
      simpa [List.filter_eq_nil_iff] using hsilent hname
    rw [hf, codings_acceptEncoding, List.filter_append, hitems, List.nil_append]
  · rw [codings_cons_of_no_text fun h => absurd h hname]

/-- **Whether gzip is accepted depends on one list of items.**  Two values with no text between
    them can be joined with a comma, and a value can be cut at one.  Fields that have no item
    concerning gzip, such as values without text, can be added and left out, and so can such items
    of a value.  If at most one item names gzip and at most one is a wildcard, items can change
    places, within a value and between fields.  As soon as one item names gzip, wildcards can be
    added, changed and left out. -/
theorem acceptsGzip_of_items :
    (∀ (before between after : Headers) (v w : Bytes),
      (∀ f ∈ between, f.name = "accept-encoding" → text? f.value = none) →
      (text? (v ++ comma :: w)).isSome = true →
      acceptsGzip (before ++ acceptEncoding v :: (between ++ acceptEncoding w :: after)) =
        acceptsGzip (before ++ acceptEncoding (v ++ comma :: w) :: (between ++ after))) ∧
    (∀ v w, (text? (v ++ comma :: w)).isSome = ((text? v).isSome && (text? w).isSome)) ∧
    (∀ (before after : Headers) (f : Header),
      (f.name = "accept-encoding" → ∀ i ∈ valueCodings f.value, i.concerns = false) →
      acceptsGzip (before ++ f :: after) = acceptsGzip (before ++ after)) ∧
    (∀ v, text? v = none → valueCodings v = []) ∧
    (∀ (before after : Headers) (front back : List Bytes) (item : Bytes),
      (text? item).isSome = true → (∀ i ∈ valueCodings item, i.concerns = false) →
      acceptsGzip
          (before ++ acceptEncoding ([comma].intercalate (front ++ item :: back)) :: after) =
        acceptsGzip (before ++ acceptEncoding ([comma].intercalate (front ++ back)) :: after)) ∧
    (∀ hs hs', (codings hs).Perm (codings hs') → (codings hs).countP CodingItem.namesGzip ≤ 1 →
      (codings hs).countP CodingItem.isWildcard ≤ 1 → acceptsGzip hs = acceptsGzip hs') ∧
    (∀ (before after : Headers) (pieces pieces' : List Bytes), pieces.Perm pieces' →
      (codings (before ++ acceptEncoding ([comma].intercalate pieces) :: after)).Perm
        (codings (before ++ acceptEncoding ([comma].intercalate pieces') :: after))) ∧
    (∀ hs hs', (codings hs).any CodingItem.namesGzip = true →
      ((codings hs).filter fun i => !i.isWildcard) =
        ((codings hs').filter fun i => !i.isWildcard) →
      acceptsGzip hs = acceptsGzip hs') := by
  refine ⟨?_, text?_comma, ?_, ?_, ?_, fun hs hs' => allowsGzip_perm, ?_,
    fun hs hs' => allowsGzip_of_named⟩
  · intro before between after v w hbetween htext
    rw [acceptsGzip_eq, acceptsGzip_eq]
    simp only [codings_append, codings_acceptEncoding, valueCodings_comma htext,
      codings_of_no_text hbetween, List.nil_append, List.append_assoc]
  · intro before after f hsilent
    rw [acceptsGzip_eq, acceptsGzip_eq]
    apply allowsGzip_of_concerns
    rw [codings_append, codings_append, List.filter_append, List.filter_append,
      concerns_field hsilent]
  · intro v hv
    rw [valueCodings, hv]
    rfl
  · intro before after front back item htext hsilent
    rw [acceptsGzip_eq, acceptsGzip_eq]
    apply allowsGzip_of_concerns
    simp only [codings_append, codings_acceptEncoding, List.filter_append,
      concerns_insert front back htext hsilent]
  · intro before after pieces pieces' hperm
    rw [codings_append, codings_append, codings_acceptEncoding, codings_acceptEncoding]
    exact ((valueCodings_perm hperm).append_right _).append_left _

/-- `br, gzip;q=0` and then `*` refuse gzip: as one value, in another order, without `br`, with
    another wildcard, and next to a value that is no text.  `gzip;q=0.5` and then `*;q=0` accept
    it: as one value, in another order, and with another wildcard. -/
theorem refused_and_accepted_in_any_form :
    let one (pieces : List String) : Headers :=
      [acceptEncoding ([comma].intercalate (pieces.map utf8))]
    let refused := [acceptEncoding (utf8 "br, gzip;q=0"), acceptEncoding (utf8 "*")]
    let accepted := [acceptEncoding (utf8 "gzip;q=0.5"), acceptEncoding (utf8 "*;q=0")]
    (acceptsGzip refused = false ∧
      acceptsGzip (acceptEncoding [200] :: refused) = false ∧
      acceptsGzip (one ["br", " gzip;q=0", "*"]) = false ∧
      acceptsGzip (one ["*", " gzip;q=0", "br"]) = false ∧
      acceptsGzip (one [" gzip;q=0", "*"]) = false ∧
      acceptsGzip (one ["*;q=1", "br", " gzip;q=0"]) = false) ∧
    acceptsGzip accepted = true ∧
      acceptsGzip (one ["gzip;q=0.5", "*;q=0"]) = true ∧
      acceptsGzip (one ["*;q=0", "gzip;q=0.5"]) = true ∧
      acceptsGzip (one ["*", "gzip;q=0.5"]) = true := by
  intro one refused accepted
  obtain ⟨hjoin, -, hfield, -, hinsert, hperm, hpieces, hwild⟩ := acceptsGzip_of_items
  have hrefused : acceptsGzip refused = false := by decide +kernel
  have hone : acceptsGzip (one ["br", " gzip;q=0", "*"]) = false := by
    have h := hjoin [] [] [] (utf8 "br, gzip;q=0") (utf8 "*") (by decide) (by decide +kernel)
    have hbytes : utf8 "br, gzip;q=0" ++ comma :: utf8 "*" =
        [comma].intercalate (["br", " gzip;q=0", "*"].map utf8) := by decide +kernel
    rw [hbytes] at h
    exact h.symm.trans hrefused
  have haccepted : acceptsGzip accepted = true := by decide +kernel
  have hboth : acceptsGzip (one ["gzip;q=0.5", "*;q=0"]) = true := by
    have h := hjoin [] [] [] (utf8 "gzip;q=0.5") (utf8 "*;q=0") (by decide) (by decide +kernel)
    have hbytes : utf8 "gzip;q=0.5" ++ comma :: utf8 "*;q=0" =
        [comma].intercalate (["gzip;q=0.5", "*;q=0"].map utf8) := by decide +kernel
    rw [hbytes] at h
    exact h.symm.trans haccepted
  refine ⟨⟨hrefused, ?_, hone, ?_, ?_, ?_⟩, haccepted, hboth, ?_, ?_⟩
  · have h := hfield [] refused (acceptEncoding [200]) (by decide +kernel)
    exact h.trans hrefused
  · have hturned := hpieces [] [] (["br", " gzip;q=0", "*"].map utf8)
      (["*", " gzip;q=0", "br"].map utf8) (by decide +kernel)
    have h := hperm _ _ hturned (by decide +kernel) (by decide +kernel)
    exact h.symm.trans hone
  · have h := hinsert [] [] [] ([" gzip;q=0", "*"].map utf8) (utf8 "br") (by decide +kernel)
      (by decide +kernel)
    exact h.symm.trans hone
  · have h := hwild (one ["br", " gzip;q=0", "*"]) (one ["*;q=1", "br", " gzip;q=0"])
      (by decide +kernel) (by decide +kernel)
    exact h.symm.trans hone
  · have hturned := hpieces [] [] (["gzip;q=0.5", "*;q=0"].map utf8)
      (["*;q=0", "gzip;q=0.5"].map utf8) (by decide +kernel)
    have h := hperm _ _ hturned (by decide +kernel) (by decide +kernel)
    exact h.symm.trans hboth
  · have h := hwild (one ["gzip;q=0.5", "*;q=0"]) (one ["*", "gzip;q=0.5"])
      (by decide +kernel) (by decide +kernel)
    exact h.symm.trans hboth

end Floodgate.Http
