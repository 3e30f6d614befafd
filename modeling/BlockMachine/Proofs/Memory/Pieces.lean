import BlockMachine.Proofs.Lane.Sight

/-!
# What requests write, byte by byte

A type that copies through its bytes can be written byte by byte; any other type is written value by
value.  A *piece* is what is written at one byte of the destination: the byte, or the whole value that it
belongs to.

* `Element.content` — what a byte of an array holds; `Element.eq_of_content` says that there is nothing
  else in it.
* `Request.piece?` — what a request writes at a byte, and `Request.pieces` what several of them do.
* `Store.content_after` — a byte holds the last piece written there.
-/

set_option autoImplicit false

namespace BlockMachine

variable {σ α : Type}

namespace Element

variable (element : Element α)

/-- What a value has at one of its bytes. -/
def pieceOf (value : α) (place : Nat) : α ⊕ UInt8 :=
  match element.image with
  | none => .inl value
  | some image => .inr (image.byte value place)

/-- What an array holds at a byte of one of its slots. -/
def content (values : Array α) (slot place : Nat) : Option (α ⊕ UInt8) :=
  values[slot]?.map fun value => element.pieceOf value place

variable {element}

theorem pieceOf_of_image {image : Image α element.size} (h : element.image = some image) (value : α)
    (place : Nat) : element.pieceOf value place = .inr (image.byte value place) := by
  simp only [pieceOf, h]

theorem pieceOf_of_none (h : element.image = none) (value : α) (place : Nat) :
    element.pieceOf value place = .inl value := by
  simp only [pieceOf, h]

/-- Values with the same pieces are equal. -/
theorem eq_of_pieceOf (hsize : 0 < element.size) {value other : α}
    (h : ∀ place < element.size, element.pieceOf value place = element.pieceOf other place) :
    value = other := by
  cases hi : element.image with
  | none =>
    have hzero := h 0 hsize
    rw [pieceOf_of_none hi, pieceOf_of_none hi] at hzero
    exact Sum.inl.inj hzero
  | some image =>
    have hbytes : image.toBytes value = image.toBytes other := by
      apply Vector.ext
      intro place hplace
      have hpiece := h place hplace
      rw [pieceOf_of_image hi, pieceOf_of_image hi] at hpiece
      have hbyte := Sum.inr.inj hpiece
      simpa [Image.byte, hplace] using hbyte
    rw [← image.ofBytes_toBytes value, hbytes, image.ofBytes_toBytes]

/-- **Arrays that hold the same at every byte are equal.** -/
theorem eq_of_content (hzero : element.size = 0 → ∀ a b : α, a = b) {values others : Array α}
    (hlength : values.size = others.size)
    (h : ∀ slot place, place < element.size →
      element.content values slot place = element.content others slot place) : values = others := by
  apply Array.ext hlength
  intro slot hslot hslot'
  by_cases hsize : element.size = 0
  · exact hzero hsize _ _
  · apply eq_of_pieceOf (Nat.pos_of_ne_zero hsize)
    intro place hplace
    have hcontent := h slot place hplace
    simp only [content, Array.getElem?_eq_getElem hslot, Array.getElem?_eq_getElem hslot',
      Option.map_some] at hcontent
    exact Option.some.inj hcontent

/-! ## Writing bytes -/

theorem byte_setByte {size : Nat} (image : Image α size) (value : α) (byte : UInt8) {place other : Nat}
    (hplace : place < size) :
    image.byte (image.setByte value other byte) place =
      if other = place then byte else image.byte value place := by
  simp only [Image.byte, Image.setByte, image.toBytes_ofBytes]
  by_cases h : other = place
  · subst h
    simp [hplace]
  · simp [h]

theorem size_writeBytes (values : Array α) (position : Nat) (bytes : List UInt8) :
    (element.writeBytes values position bytes).size = values.size := by
  induction bytes generalizing values position with
  | nil => rfl
  | cons byte rest ih =>
    rw [writeBytes, ih, writeByte]
    cases element.image <;> simp

/-- A byte of a slot lies at one position only. -/
theorem div_eq_and_mod_eq_iff {size position slot place : Nat} (hplace : place < size) :
    (position / size = slot ∧ position % size = place) ↔ position = slot * size + place := by
  constructor
  · rintro ⟨rfl, rfl⟩
    rw [Nat.mul_comm, Nat.div_add_mod]
  · rintro rfl
    have hpos : 0 < size := Nat.zero_lt_of_lt hplace
    refine ⟨?_, ?_⟩
    · rw [Nat.mul_comm, Nat.mul_add_div hpos, Nat.div_eq_of_lt hplace, Nat.add_zero]
    · rw [Nat.mul_comm, Nat.mul_add_mod, Nat.mod_eq_of_lt hplace]

theorem content_writeByte {image : Image α element.size} (hi : element.image = some image)
    (values : Array α) (position : Nat) (byte : UInt8) {slot place : Nat}
    (hplace : place < element.size) :
    element.content (element.writeByte values position byte) slot place =
      if position = slot * element.size + place then
        (element.content values slot place).map fun _ => .inr byte
      else element.content values slot place := by
  simp only [content, writeByte, hi, pieceOf_of_image hi, Array.getElem?_modify]
  by_cases hslot : position / element.size = slot
  · rw [if_pos hslot, Option.map_map, Option.map_map]
    by_cases h : position = slot * element.size + place
    · rw [if_pos h]
      have hmod := ((div_eq_and_mod_eq_iff hplace).mpr h).2
      simp only [Function.comp_def, byte_setByte image _ _ hplace, hmod, if_true]
    · rw [if_neg h]
      have hmod : position % element.size ≠ place :=
        fun hm => h ((div_eq_and_mod_eq_iff hplace).mp ⟨hslot, hm⟩)
      simp only [Function.comp_def, byte_setByte image _ _ hplace, if_neg hmod]
  · have h : position ≠ slot * element.size + place :=
      fun h => hslot ((div_eq_and_mod_eq_iff hplace).mpr h).1
    rw [if_neg hslot, if_neg h]

end Element

/-! ## Pieces -/

namespace Request

/-- What a request writes at a byte of a slot. -/
def piece? (element : Element α) (slot place : Nat) : Request σ α → Option (α ⊕ UInt8)
  | .write index value => if index = slot then some (element.pieceOf value place) else none
  | .writeBytes position bytes =>
    if element.isTrivial ∧ position ≤ slot * element.size + place then
      bytes[slot * element.size + place - position]?.map .inr
    else none
  | _ => none

/-- What some requests write at a byte of a slot, in their order. -/
def pieces (element : Element α) (slot place : Nat) (requests : List (Request σ α)) :
    List (α ⊕ UInt8) :=
  requests.filterMap (piece? element slot place)

theorem pieces_cons (element : Element α) (slot place : Nat) (request : Request σ α)
    (rest : List (Request σ α)) :
    pieces element slot place (request :: rest) =
      (request.piece? element slot place).toList ++ pieces element slot place rest := by
  unfold pieces
  cases h : request.piece? element slot place with
  | none => rw [List.filterMap_cons_none h]; rfl
  | some piece => rw [List.filterMap_cons_some h]; rfl

theorem pieces_append (element : Element α) (slot place : Nat)
    (first second : List (Request σ α)) :
    pieces element slot place (first ++ second) =
      pieces element slot place first ++ pieces element slot place second :=
  List.filterMap_append

theorem pieces_flatMap {ι : Type} (element : Element α) (slot place : Nat) (items : List ι)
    (requests : ι → List (Request σ α)) :
    pieces element slot place (items.flatMap requests) =
      items.flatMap fun item => pieces element slot place (requests item) :=
  List.filterMap_flatMap

theorem pieces_perm (element : Element α) (slot place : Nat) {first second : List (Request σ α)}
    (h : first.Perm second) :
    (pieces element slot place first).Perm (pieces element slot place second) :=
  h.filterMap _

theorem size_leave (element : Element α) (request : Request σ α) (held : Store α) :
    (request.leave element held).output.size = held.output.size := by
  cases request <;> simp [leave, Element.size_writeBytes]

end Request

namespace Element

variable {element : Element α}

/-- A byte of an array after some bytes have been written. -/
theorem content_writeBytes (values : Array α) (position : Nat) (bytes : List UInt8)
    {slot place : Nat} (hplace : place < element.size) :
    element.content (element.writeBytes values position bytes) slot place =
      match (Request.writeBytes position bytes : Request σ α).piece? element slot place with
      | some piece => (element.content values slot place).map fun _ => piece
      | none => element.content values slot place := by
  induction bytes generalizing values position with
  | nil =>
    have hnone : (Request.writeBytes position [] : Request σ α).piece? element slot place = none := by
      simp [Request.piece?]
    rw [hnone]
    rfl
  | cons byte rest ih =>
    rw [writeBytes, ih]
    cases hi : element.image with
    | none =>
      have htrivial : element.isTrivial = false := by simp [isTrivial, hi]
      have hvalues : element.writeByte values position byte = values := by simp [writeByte, hi]
      simp [Request.piece?, htrivial, hvalues]
    | some image =>
      have htrivial : element.isTrivial = true := by simp [isTrivial, hi]
      simp only [Request.piece?, htrivial, true_and, content_writeByte hi values position byte hplace]
      by_cases heq : position = slot * element.size + place
      · -- the first byte lies here, and the others behind it
        subst heq
        have hle : ¬ slot * element.size + place + 1 ≤ slot * element.size + place := by omega
        rw [if_neg hle, if_pos rfl, if_pos (Nat.le_refl _), Nat.sub_self]
        rfl
      · by_cases hle : position + 1 ≤ slot * element.size + place
        · have hle' : position ≤ slot * element.size + place := by omega
          have hindex : slot * element.size + place - position =
              slot * element.size + place - (position + 1) + 1 := by omega
          rw [if_pos hle, if_pos hle', if_neg heq, hindex, List.getElem?_cons_succ]
        · have hlt : ¬ position ≤ slot * element.size + place := by omega
          rw [if_neg hle, if_neg hlt, if_neg heq]

end Element

namespace Request

/-- **A byte after a request** holds what the request writes there, or what it held before. -/
theorem content_leave (element : Element α) (request : Request σ α) (held : Store α)
    {slot place : Nat} (hplace : place < element.size) :
    element.content (request.leave element held).output slot place =
      match request.piece? element slot place with
      | some piece => (element.content held.output slot place).map fun _ => piece
      | none => element.content held.output slot place := by
  cases request with
  | write index value =>
    simp only [leave, piece?, Element.content, Array.getElem?_setIfInBounds]
    by_cases h : index = slot
    · subst h
      by_cases hlt : index < held.output.size
      · simp [hlt]
      · simp [hlt]
    · simp [h]
  | writeBytes position bytes => exact Element.content_writeBytes held.output position bytes hplace
  | _ => rfl

end Request

namespace Store

theorem size_after (element : Element α) (store : Store α) (requests : List (Request σ α)) :
    (store.after element requests).output.size = store.output.size := by
  induction requests generalizing store with
  | nil => rfl
  | cons request rest ih => rw [after_cons, ih, Request.size_leave]

/-- **A byte holds the last piece written there**, if there is one. -/
theorem content_after (element : Element α) (store : Store α) (requests : List (Request σ α))
    {slot place : Nat} (hplace : place < element.size) :
    element.content (store.after element requests).output slot place =
      (Request.pieces element slot place requests).foldl (fun held piece => held.map fun _ => piece)
        (element.content store.output slot place) := by
  induction requests generalizing store with
  | nil => rfl
  | cons request rest ih =>
    rw [after_cons, ih, Request.content_leave element request store hplace, Request.pieces_cons]
    cases request.piece? element slot place <;> rfl

/-- A slot keeps its value if nothing is written there. -/
theorem getElem?_after_of_no_pieces {element : Element α} (hsize : 0 < element.size) {slot : Nat}
    {requests : List (Request σ α)}
    (h : ∀ place < element.size, Request.pieces element slot place requests = []) (store : Store α) :
    (store.after element requests).output[slot]? = store.output[slot]? := by
  have hlength := size_after element store requests
  by_cases hslot : slot < store.output.size
  · have hslot' : slot < (store.after element requests).output.size := hlength.symm ▸ hslot
    rw [Array.getElem?_eq_getElem hslot', Array.getElem?_eq_getElem hslot]
    refine congrArg some (Element.eq_of_pieceOf hsize fun place hplace => ?_)
    have hcontent : element.content (store.after element requests).output slot place = _ :=
      content_after element store requests hplace
    rw [h place hplace, List.foldl_nil] at hcontent
    simp only [Element.content, Array.getElem?_eq_getElem hslot', Array.getElem?_eq_getElem hslot,
      Option.map_some] at hcontent
    exact Option.some.inj hcontent
  · rw [Array.getElem?_eq_none (by omega), Array.getElem?_eq_none (by omega)]

/-- If at most one piece is written at each byte, the order of the requests does not matter. -/
theorem output_after_perm {element : Element α} (hzero : element.size = 0 → ∀ a b : α, a = b)
    {first second : List (Request σ α)} (h : first.Perm second)
    (hone : ∀ slot place, place < element.size →
      (Request.pieces element slot place first).length ≤ 1) {store other : Store α}
    (hsame : store.output = other.output) :
    (store.after element first).output = (other.after element second).output := by
  apply Element.eq_of_content hzero (by rw [size_after, size_after, hsame])
  intro slot place hplace
  have hperm := Request.pieces_perm element slot place h
  have hlength := hone slot place hplace
  rw [content_after element store first hplace, content_after element other second hplace, hsame]
  generalize Request.pieces element slot place first = pieces at hperm hlength ⊢
  match pieces, hlength with
  | [], _ => rw [List.nil_perm.mp hperm]
  | [piece], _ => rw [List.singleton_perm.mp hperm]

end Store

end BlockMachine
