import BlockMachine.Proofs.Memory.Pieces

/-!
# Requests that write a run of slots

* `Request.Writes` — some requests write copies of given values to consecutive slots, each byte once, and
  nothing else; such requests can be put one after the other and in any order.
* `Request.WritesBytes` — the same for a string of bytes; if the bytes are those of some values, then the
  values are written.
* `Store.output_after_writes` — what such requests leave.
* `Store.getElem?_after_of_unwritten`, `Store.getElem?_after_of_written` — what requests leave in a slot that all
  write the same value to it.
-/

set_option autoImplicit false

namespace BlockMachine

variable {σ α : Type}

/-- Whether one value is a copy of another: the value itself, or what a clone of it gives. -/
def Element.IsCopy (element : Element α) (value copy : α) : Prop :=
  copy = value ∨ element.clone value = .ok copy

namespace Request

/-- Copies of some values are written to the slots from `first` on, each byte once, and nothing else. -/
structure Writes (element : Element α) (first : Nat) (values : List α)
    (requests : List (Request σ α)) : Prop where
  inside : ∀ (i : Nat) (value : α), values[i]? = some value → ∀ place < element.size, ∃ copy,
    element.IsCopy value copy ∧
      pieces element (first + i) place requests = [element.pieceOf copy place]
  outside : ∀ slot, slot < first ∨ first + values.length ≤ slot → ∀ place < element.size,
    pieces element slot place requests = []

variable {element : Element α} {first : Nat} {values : List α} {requests : List (Request σ α)}

/-- Whether a request writes nothing. -/
def Silent : Request σ α → Prop
  | .write _ _ | .writeBytes _ _ => False
  | _ => True

/-- Whether a request writes no parts of values. -/
def Whole : Request σ α → Prop
  | .writeBytes _ _ => False
  | _ => True

theorem Silent.whole {request : Request σ α} (h : request.Silent) : request.Whole := by
  cases request <;> trivial

/-- A request that writes no parts of values writes all of a slot or nothing of it. -/
theorem Whole.piece?_ne_none {request : Request σ α} (h : request.Whole) {slot place : Nat}
    (hpiece : request.piece? element slot place ≠ none) (other : Nat) :
    request.piece? element slot other ≠ none := by
  cases request with
  | write index value =>
    simp only [piece?] at hpiece ⊢
    by_cases hindex : index = slot
    · simp [hindex]
    · simp [hindex] at hpiece
  | writeBytes position bytes => exact absurd h id
  | _ => exact absurd rfl hpiece

theorem Silent.piece?_eq {request : Request σ α} (h : request.Silent) (slot place : Nat) :
    request.piece? element slot place = none := by
  cases request <;> first | rfl | exact absurd h id

theorem Local.silent {request : Request σ α} (h : request.Local) : request.Silent := by
  cases request <;> trivial

theorem pieces_of_silent (h : ∀ request ∈ requests, request.Silent) (slot place : Nat) :
    pieces element slot place requests = [] :=
  List.filterMap_eq_nil_iff.mpr fun request hr => (h request hr).piece?_eq slot place

theorem Writes.of_silent (first : Nat) (h : ∀ request ∈ requests, request.Silent) :
    Writes element first [] requests :=
  ⟨fun _ _ hi => absurd (List.mem_of_getElem? hi) List.not_mem_nil,
    fun slot _ place _ => pieces_of_silent h slot place⟩

/-- One value after the other. -/
theorem Writes.append {others : List α} {later : List (Request σ α)}
    (h : Writes element first values requests)
    (h' : Writes element (first + values.length) others later) :
    Writes element first (values ++ others) (requests ++ later) := by
  refine ⟨fun i value hi place hplace => ?_, fun slot hslot place hplace => ?_⟩
  · rw [pieces_append]
    by_cases hlt : i < values.length
    · rw [List.getElem?_append_left hlt] at hi
      obtain ⟨copy, hcopy, hpieces⟩ := h.inside i value hi place hplace
      have hlater := h'.outside (first + i) (.inl (by omega)) place hplace
      exact ⟨copy, hcopy, by rw [hpieces, hlater, List.append_nil]⟩
    · rw [List.getElem?_append_right (Nat.le_of_not_lt hlt)] at hi
      obtain ⟨copy, hcopy, hpieces⟩ := h'.inside (i - values.length) value hi place hplace
      have hslot : first + values.length + (i - values.length) = first + i := by omega
      have hearly := h.outside (first + i) (.inr (by omega)) place hplace
      rw [hslot] at hpieces
      exact ⟨copy, hcopy, by rw [hpieces, hearly, List.nil_append]⟩
  · rw [List.length_append] at hslot
    have hearly := h.outside slot (by omega) place hplace
    have hlater := h'.outside slot (by omega) place hplace
    rw [pieces_append, hearly, hlater, List.append_nil]

/-- The order of the requests does not matter. -/
theorem Writes.perm {others : List (Request σ α)} (h : Writes element first values requests)
    (hperm : requests.Perm others) : Writes element first values others := by
  refine ⟨fun i value hi place hplace => ?_, fun slot hslot place hplace => ?_⟩
  · obtain ⟨copy, hcopy, hpieces⟩ := h.inside i value hi place hplace
    have hsame := pieces_perm element (first + i) place hperm
    rw [hpieces] at hsame
    exact ⟨copy, hcopy, (List.singleton_perm.mp hsame).symm⟩
  · have hsame := pieces_perm element slot place hperm
    rw [h.outside slot hslot place hplace] at hsame
    exact List.nil_perm.mp hsame

/-- Requests that write nothing may stand in front. -/
theorem Writes.silent_append {quiet : List (Request σ α)}
    (hquiet : ∀ request ∈ quiet, request.Silent) (h : Writes element first values requests) :
    Writes element first values (quiet ++ requests) :=
  (Writes.of_silent first hquiet).append h

/-- Each of some parties writes its own values. -/
theorem Writes.flatMap {count : Nat} (start : Nat → Nat) (part : Nat → List α)
    {made : Nat → List (Request σ α)}
    (hstart : ∀ party < count, start (party + 1) = start party + (part party).length)
    (h : ∀ party < count, Writes element (start party) (part party) (made party)) :
    Writes element (start 0) ((List.range count).flatMap part) ((List.range count).flatMap made) ∧
      start count = start 0 + ((List.range count).flatMap part).length := by
  induction count with
  | zero => exact ⟨.of_silent _ fun _ hr => absurd hr List.not_mem_nil, rfl⟩
  | succ count ih =>
    obtain ⟨hwrites, hlast⟩ := ih (fun party hparty => hstart party (Nat.lt_succ_of_lt hparty))
      fun party hparty => h party (Nat.lt_succ_of_lt hparty)
    have hnext := h count (Nat.lt_succ_self count)
    rw [hlast] at hnext
    simp only [List.range_succ, List.flatMap_append, List.flatMap_cons, List.flatMap_nil,
      List.append_nil]
    refine ⟨hwrites.append hnext, ?_⟩
    rw [hstart count (Nat.lt_succ_self count), hlast, List.length_append, Nat.add_assoc]

/-- How many pieces are written at a byte: one within the slots, and none elsewhere. -/
theorem Writes.length_pieces (h : Writes element first values requests) {slot place : Nat}
    (hplace : place < element.size) : (pieces element slot place requests).length =
      if first ≤ slot ∧ slot < first + values.length then 1 else 0 := by
  by_cases hslot : first ≤ slot ∧ slot < first + values.length
  · have hlt : slot - first < values.length := by omega
    obtain ⟨copy, _, hpieces⟩ :=
      h.inside (slot - first) _ (List.getElem?_eq_getElem hlt) place hplace
    rw [Nat.add_sub_cancel' hslot.1] at hpieces
    rw [hpieces, if_pos hslot]
    rfl
  · rw [h.outside slot (by omega) place hplace, if_neg hslot]
    rfl

/-- A write of one value.  Values without bytes have no place of their own. -/
theorem Writes.write {value copy : α} (hcopy : element.IsCopy value copy) {index : Nat}
    (hindex : 0 < element.size → index = first) :
    Writes element first [value] [(.write index copy : Request σ α)] := by
  refine ⟨fun i other hi place hplace => ?_, fun slot hslot place hplace => ?_⟩
  · obtain rfl := hindex (Nat.zero_lt_of_lt hplace)
    cases i with
    | zero =>
      obtain rfl := Option.some.inj hi
      exact ⟨copy, hcopy, by simp [pieces, piece?]⟩
    | succ i => cases hi
  · obtain rfl := hindex (Nat.zero_lt_of_lt hplace)
    have hne : index ≠ slot := by
      simp only [List.length_cons, List.length_nil] at hslot
      omega
    simp [pieces, piece?, hne]

/-! ## Strings of bytes -/

/-- A string of bytes is written from a position on, each byte once, and nothing else. -/
def WritesBytes (element : Element α) (position : Nat) (bytes : List UInt8)
    (requests : List (Request σ α)) : Prop :=
  ∀ slot place, place < element.size → pieces element slot place requests =
    (if position ≤ slot * element.size + place then
      bytes[slot * element.size + place - position]?.map Sum.inr else none).toList

theorem WritesBytes.nil (element : Element α) (position : Nat) :
    WritesBytes element position [] ([] : List (Request σ α)) := by
  intro slot place _
  simp [pieces]

theorem WritesBytes.one (htrivial : element.isTrivial = true) (position : Nat) (bytes : List UInt8) :
    WritesBytes element position bytes [(.writeBytes position bytes : Request σ α)] := by
  intro slot place _
  rw [pieces_cons]
  simp only [piece?, htrivial, true_and, pieces, List.filterMap_nil, List.append_nil]

theorem WritesBytes.append {position : Nat} {bytes others : List UInt8}
    {later : List (Request σ α)} (h : WritesBytes element position bytes requests)
    (h' : WritesBytes element (position + bytes.length) others later) :
    WritesBytes element position (bytes ++ others) (requests ++ later) := by
  intro slot place hplace
  rw [pieces_append, h slot place hplace, h' slot place hplace]
  by_cases hle : position ≤ slot * element.size + place
  · rw [if_pos hle, if_pos hle]
    by_cases hlt : slot * element.size + place - position < bytes.length
    · have hnot : ¬ position + bytes.length ≤ slot * element.size + place := by omega
      rw [if_neg hnot, List.getElem?_append_left hlt]
      exact List.append_nil _
    · have hle' : position + bytes.length ≤ slot * element.size + place := by omega
      have hindex : slot * element.size + place - position - bytes.length =
          slot * element.size + place - (position + bytes.length) := by omega
      rw [if_pos hle', List.getElem?_eq_none (Nat.le_of_not_lt hlt),
        List.getElem?_append_right (Nat.le_of_not_lt hlt), hindex]
      rfl
  · have hnot : ¬ position + bytes.length ≤ slot * element.size + place := by omega
    rw [if_neg hle, if_neg hle, if_neg hnot]
    rfl

/-- The bytes of some values are written. -/
theorem WritesBytes.writes {image : Image α element.size} (himage : element.image = some image)
    {bytes : List UInt8} (h : WritesBytes element (first * element.size) bytes requests)
    (hlength : bytes.length = values.length * element.size)
    (hbytes : ∀ (i : Nat) (value : α), values[i]? = some value → ∀ place < element.size,
      bytes[i * element.size + place]? = some (image.byte value place)) :
    Writes element first values requests := by
  refine ⟨fun i value hi place hplace => ⟨value, .inl rfl, ?_⟩, fun slot hslot place hplace => ?_⟩
  · have hsum : (first + i) * element.size + place =
        first * element.size + (i * element.size + place) := by
      rw [Nat.add_mul, Nat.add_assoc]
    rw [h (first + i) place hplace, hsum, if_pos (Nat.le_add_right _ _), Nat.add_sub_cancel_left,
      hbytes i value hi place hplace, Element.pieceOf_of_image himage]
    rfl
  · rw [h slot place hplace]
    rcases hslot with hlt | hle
    · -- the slot ends where the first one begins, or before
      have hbefore : (slot + 1) * element.size ≤ first * element.size :=
        Nat.mul_le_mul_right _ hlt
      rw [Nat.succ_mul] at hbefore
      rw [if_neg (by omega)]
      rfl
    · have hbehind : (first + values.length) * element.size ≤ slot * element.size :=
        Nat.mul_le_mul_right _ hle
      rw [Nat.add_mul, ← hlength] at hbehind
      rw [if_pos (by omega), List.getElem?_eq_none (by omega)]
      rfl

end Request

open Request in
/-- **What requests leave that write each byte of some values once**, and nothing else. -/
theorem Store.output_after_pieces {element : Element α} {first : Nat} {values : List α}
    {requests : List (Request σ α)} (hzero : element.size = 0 → ∀ a b : α, a = b)
    (hinside : ∀ (i : Nat) (value : α), values[i]? = some value → ∀ place < element.size,
      pieces element (first + i) place requests = [element.pieceOf value place])
    (houtside : ∀ slot, slot < first ∨ first + values.length ≤ slot → ∀ place < element.size,
      pieces element slot place requests = [])
    (store : Store α) (hfits : first + values.length ≤ store.output.size) :
    (store.after element requests).output.toList = store.output.toList.take first ++ values ++
      store.output.toList.drop (first + values.length) := by
  have hlength : (store.after element requests).output.size = (store.output.toList.take first ++
      values ++ store.output.toList.drop (first + values.length)).toArray.size := by
    simp only [Store.size_after, List.size_toArray, List.length_append, List.length_take,
      List.length_drop, Array.length_toList]
    omega
  refine congrArg Array.toList (Element.eq_of_content hzero hlength ?_)
  intro slot place hplace
  rw [Store.content_after element store requests hplace]
  simp only [Element.content, List.getElem?_toArray]
  by_cases hlt : slot < first
  · rw [houtside slot (.inl hlt) place hplace, List.append_assoc, List.getElem?_append_left
      (by simp; omega), List.getElem?_take_of_lt hlt, Array.getElem?_toList]
    rfl
  · by_cases hle : first + values.length ≤ slot
    · have hindex : first + values.length + (slot - (first + values.length)) = slot := by omega
      rw [houtside slot (.inr hle) place hplace, List.getElem?_append_right (by simp; omega),
        List.getElem?_drop, Array.getElem?_toList]
      simp only [List.length_append, List.length_take, Array.length_toList,
        Nat.min_eq_left (by omega : first ≤ store.output.size), hindex]
      rfl
    · have hi : slot - first < values.length := by omega
      have hpieces := hinside (slot - first) _ (List.getElem?_eq_getElem hi) place hplace
      have hslot : first + (slot - first) = slot := by omega
      have hin : slot < store.output.size := by omega
      rw [hslot] at hpieces
      rw [hpieces, List.append_assoc, List.getElem?_append_right (by simp; omega),
        List.getElem?_append_left (by simp; omega)]
      simp only [List.length_take, Array.length_toList,
        Nat.min_eq_left (by omega : first ≤ store.output.size), List.getElem?_eq_getElem hi,
        Array.getElem?_eq_getElem hin, List.foldl_cons, List.foldl_nil, Option.map_some]

open Request in
/-- **What requests leave that write a run of slots.** -/
theorem Store.output_after_writes {element : Element α} {first : Nat} {values : List α}
    {requests : List (Request σ α)} (hzero : element.size = 0 → ∀ a b : α, a = b)
    (hclone : ∀ value, element.clone value = .ok value) (h : Writes element first values requests)
    (store : Store α) (hfits : first + values.length ≤ store.output.size) :
    (store.after element requests).output.toList = store.output.toList.take first ++ values ++
      store.output.toList.drop (first + values.length) := by
  refine Store.output_after_pieces hzero (fun i value hi place hplace => ?_) h.outside store hfits
  obtain ⟨copy, hcopy, hpieces⟩ := h.inside i value hi place hplace
  obtain rfl : copy = value := by
    rcases hcopy with rfl | hcopy
    · rfl
    · rw [hclone] at hcopy
      exact (Except.ok.inj hcopy).symm
  exact hpieces

namespace Store

variable {element : Element α} {slot : Nat} {value : α} {requests : List (Request σ α)}

/-- A slot keeps its value if no request writes to it, -/
theorem getElem?_after_of_unwritten (hwhole : ∀ request ∈ requests, request.Whole)
    (h : ∀ copy, (.write slot copy : Request σ α) ∉ requests) (store : Store α) :
    (store.after element requests).output[slot]? = store.output[slot]? := by
  induction requests generalizing store with
  | nil => rfl
  | cons request rest ih =>
    rw [after_cons, ih (fun other hother => hwhole other (List.mem_cons_of_mem _ hother))
      fun copy hmem => h copy (List.mem_cons_of_mem _ hmem)]
    have hone := hwhole request List.mem_cons_self
    cases request with
    | write index copy =>
      have hne : index ≠ slot := fun he => h copy (he ▸ List.mem_cons_self)
      exact Array.getElem?_setIfInBounds_ne hne
    | writeBytes position bytes => exact absurd hone id
    | _ => rfl

/-- and has the only value that is written to it. -/
theorem getElem?_after_of_written (hwhole : ∀ request ∈ requests, request.Whole)
    (hsame : ∀ copy, (.write slot copy : Request σ α) ∈ requests → copy = value)
    (h : (.write slot value : Request σ α) ∈ requests) (store : Store α) :
    (store.after element requests).output[slot]? = store.output[slot]?.map fun _ => value := by
  induction requests generalizing store with
  | nil => cases h
  | cons request rest ih =>
    have hrest : ∀ request ∈ rest, request.Whole :=
      fun other hother => hwhole other (List.mem_cons_of_mem _ hother)
    have hsize : (request.leave element store).output.size = store.output.size :=
      request.size_leave element store
    rw [after_cons]
    by_cases hlater : (.write slot value : Request σ α) ∈ rest
    · rw [ih hrest (fun copy hmem => hsame copy (List.mem_cons_of_mem _ hmem)) hlater]
      by_cases hslot : slot < store.output.size
      · rw [Array.getElem?_eq_getElem hslot, Array.getElem?_eq_getElem (by omega)]
        rfl
      · rw [Array.getElem?_eq_none (by omega), Array.getElem?_eq_none (by omega)]
    · -- the first request is the last one that writes to the slot
      obtain rfl := (List.mem_cons.mp h).resolve_right hlater
      rw [getElem?_after_of_unwritten hrest fun copy hmem => hlater
        (hsame copy (List.mem_cons_of_mem _ hmem) ▸ hmem)]
      show (store.output.setIfInBounds slot value)[slot]? = _
      rw [Array.getElem?_setIfInBounds_self]
      by_cases hslot : slot < store.output.size
      · rw [if_pos hslot, Array.getElem?_eq_getElem hslot]
        rfl
      · rw [if_neg hslot, Array.getElem?_eq_none (by omega)]
        rfl

end Store

end BlockMachine
