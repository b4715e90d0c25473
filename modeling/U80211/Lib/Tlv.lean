import Mathlib.Data.List.Basic

/-!
# Elements of a type, a length and a value

A string of elements, each with one byte for its type and one for its length.

* `encodeAll_injective`: a string of elements can be read in one way only
* `exists_element`: a string whose length byte does not point behind its end starts with an element
* `last`: the last element of a type
-/

namespace Tlv

/-- An element, whose length fits into a byte. -/
@[ext]
structure Element where
  id : UInt8
  body : List UInt8
  fits : body.length < 256
deriving DecidableEq

namespace Element

/-- The length byte. -/
def size (e : Element) : UInt8 := UInt8.ofNat e.body.length

@[simp] theorem toNat_size (e : Element) : e.size.toNat = e.body.length := by
  rw [size, UInt8.toNat_ofNat_of_lt' e.fits]

def encode (e : Element) : List UInt8 := e.id :: e.size :: e.body

@[simp] theorem length_encode (e : Element) : e.encode.length = e.body.length + 2 := rfl

/-- No element is the start of another one. -/
theorem encode_append_inj {e e' : Element} {l l' : List UInt8}
    (h : e.encode ++ l = e'.encode ++ l') : e = e' ∧ l = l' := by
  simp only [encode, List.cons_append, List.cons.injEq] at h
  obtain ⟨hid, hsize, hrest⟩ := h
  have hlen : e.body.length = e'.body.length := by
    rw [← toNat_size, hsize, toNat_size]
  obtain ⟨hbody, hl⟩ := List.append_inj hrest hlen
  exact ⟨Element.ext hid hbody, hl⟩

end Element

/-- The string of elements. -/
def encodeAll (es : List Element) : List UInt8 := es.flatMap Element.encode

variable {e : Element} {es es' : List Element}

@[simp] theorem encodeAll_nil : encodeAll [] = [] := rfl

@[simp] theorem encodeAll_cons (e : Element) (es : List Element) :
    encodeAll (e :: es) = e.encode ++ encodeAll es := List.flatMap_cons

@[simp] theorem encodeAll_append (es es' : List Element) :
    encodeAll (es ++ es') = encodeAll es ++ encodeAll es' := List.flatMap_append

/-- **A string of elements can be read in one way only.** -/
theorem encodeAll_injective (h : encodeAll es = encodeAll es') : es = es' := by
  induction es generalizing es' with
  | nil =>
    cases es' with
    | nil => rfl
    | cons e' es' => simp [Element.encode] at h
  | cons e es ih =>
    cases es' with
    | nil => simp [Element.encode] at h
    | cons e' es' =>
      rw [encodeAll_cons, encodeAll_cons] at h
      obtain ⟨rfl, hrest⟩ := Element.encode_append_inj h
      rw [ih hrest]

/-- A string whose length byte does not point behind its end starts with an element. -/
theorem exists_element (id size : UInt8) {rest : List UInt8} (h : size.toNat ≤ rest.length) :
    ∃ e : Element, e.id = id ∧ e.body = rest.take size.toNat ∧
      id :: size :: rest = e.encode ++ rest.drop size.toNat := by
  have hlen : (rest.take size.toNat).length = size.toNat := by
    rw [List.length_take, Nat.min_eq_left h]
  refine ⟨⟨id, rest.take size.toNat, by rw [hlen]; exact size.toNat_lt⟩, rfl, rfl, ?_⟩
  have hsize : UInt8.ofNat (rest.take size.toNat).length = size := by
    rw [hlen, UInt8.ofNat_toNat]
  show id :: size :: rest =
    id :: UInt8.ofNat (rest.take size.toNat).length :: (rest.take size.toNat ++ _)
  rw [hsize, List.take_append_drop]

/-! ## The last element of a type -/

def last (id : UInt8) (es : List Element) : Option Element :=
  (es.filter fun e => e.id = id).getLast?

@[simp] theorem last_nil (id : UInt8) : last id [] = none := rfl

/-- A later element takes the place of the earlier ones of its type. -/
theorem last_concat (id : UInt8) (es : List Element) (e : Element) :
    last id (es ++ [e]) = if e.id = id then some e else last id es := by
  unfold last
  split
  · next h => simp [h]
  · next h => simp [h]

/-- An element that is followed by none of its type is the last one. -/
theorem last_cons_of_forall_ne {id : UInt8} (he : e.id = id) (h : ∀ e' ∈ es, e'.id ≠ id) :
    last id (e :: es) = some e := by
  have hfilter : es.filter (fun e' => e'.id = id) = [] := by
    rw [List.filter_eq_nil_iff]
    intro e' he'
    simpa using h e' he'
  unfold last
  rw [List.filter_cons, if_pos (decide_eq_true he), hfilter]
  rfl

theorem id_of_last {id : UInt8} (h : last id es = some e) : e.id = id := by
  have hmem := List.mem_of_getLast? h
  simpa using (List.mem_filter.mp hmem).2

end Tlv
