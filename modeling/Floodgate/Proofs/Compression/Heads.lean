/-
  Floodgate/Proofs/Compression/Heads.lean
  =======================================
  **The head of an encoded response.**  Its `Content-Encoding` is gzip and nothing else, its
  `Content-Length` is gone, and its `Vary` covers the encodings that a request accepts.  All
  other fields are those of the response, in their order (`announces_encodedHead`).
-/
import Floodgate.Pipeline.Compressed

namespace Floodgate

open Http (Bytes Head Headers)

namespace Http.Headers

variable {hs : Headers} {name other : String} {value : Bytes}

theorem values_remove_self : (hs.remove name).values name = [] := by
  simp only [remove, values, List.filter_filter]
  rw [List.filter_eq_nil_iff.mpr]
  · rfl
  · intro h _
    by_cases hname : h.name = name <;> simp [hname]

theorem values_append_ne (hname : fieldName name ≠ other) :
    (hs.append name value).values other = hs.values other := by
  simp [append, values, hname]

/-- The fields whose names are none of some. -/
def without (hs : Headers) (names : List String) : Headers :=
  hs.filter fun h => !names.contains h.name

theorem without_remove {names : List String} (hname : name ∈ names) :
    (hs.remove name).without names = hs.without names := by
  simp only [remove, without, List.filter_filter]
  apply List.filter_congr
  intro h _
  by_cases hsame : h.name = name
  · simp [hsame, hname]
  · simp [hsame]

theorem without_append {names : List String} (hname : fieldName name ∈ names) :
    (hs.append name value).without names = hs.without names := by
  simp [append, without, hname]

end Http.Headers

namespace Compressed

/-- The fields that an encoded response changes. -/
def rewritten : List String := ["content-encoding", "content-length", "vary"]

/-- The head is that of the encoded response to one with the other head. -/
structure Announces (head head' : Head) : Prop where
  status : head'.status = head.status
  version : head'.version = head.version
  extension : head'.extension = head.extension
  encoding : head'.headers.values "content-encoding" = [Http.utf8 "gzip"]
  length : head'.headers.values "content-length" = []
  varies : (head'.headers.texts "vary").any coversEncoding = true
  /-- `Vary` values stay, and one may come after them. -/
  vary : ∃ more, head'.headers.values "vary" = head.headers.values "vary" ++ more
  others : head'.headers.without rewritten = head.headers.without rewritten

variable (hs : Headers)

theorem withVary_values {name : String} (h : name ≠ "vary") :
    (withVary hs).values name = hs.values name := by
  unfold withVary
  split
  · rfl
  · have hfield : Http.fieldName "vary" = "vary" := by decide +kernel
    exact Headers.values_append_ne fun hv => h (hv.symm.trans hfield)

theorem withVary_vary : ∃ more, (withVary hs).values "vary" = hs.values "vary" ++ more := by
  unfold withVary
  split
  · exact ⟨[], (List.append_nil _).symm⟩
  · exact ⟨_, Headers.values_append_self hs "vary" _ (by decide +kernel)⟩

theorem withVary_covers : ((withVary hs).texts "vary").any coversEncoding = true := by
  unfold withVary
  split
  · next h => exact h
  · rw [Headers.texts, Headers.values_append_self hs "vary" _ (by decide +kernel),
      List.filterMap_append, List.any_append]
    have hnew : ([Http.utf8 "Accept-Encoding"].filterMap Http.text?).any coversEncoding = true := by
      decide +kernel
    rw [hnew, Bool.or_true]

theorem withVary_others : (withVary hs).without rewritten = hs.without rewritten := by
  unfold withVary
  split
  · rfl
  · exact Headers.without_append (by decide +kernel)

/-- **What changes in the head of an encoded response.** -/
theorem announces_encodedHead (head : Head) : Announces head (encodedHead head) where
  status := rfl
  version := rfl
  extension := rfl
  encoding := by
    show (withVary _).values _ = _
    rw [withVary_values _ (by decide), Headers.replace,
      Headers.values_append_self _ _ _ (by decide +kernel), Headers.values_remove_self]
    rfl
  length := by
    show (withVary _).values _ = _
    rw [withVary_values _ (by decide), Headers.replace,
      Headers.values_append_ne (by decide +kernel), Headers.values_remove_ne _ (by decide),
      Headers.values_remove_self]
  varies := withVary_covers _
  vary := by
    obtain ⟨more, hmore⟩ := withVary_vary
      ((head.headers.remove "content-length").replace "content-encoding" (Http.utf8 "gzip"))
    refine ⟨more, hmore.trans ?_⟩
    rw [Headers.replace, Headers.values_append_ne (by decide +kernel),
      Headers.values_remove_ne _ (by decide), Headers.values_remove_ne _ (by decide)]
  others := by
    show (withVary _).without _ = _
    rw [withVary_others, Headers.replace, Headers.without_append (by decide +kernel),
      Headers.without_remove (by decide), Headers.without_remove (by decide)]

end Compressed

end Floodgate
