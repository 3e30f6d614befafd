import BlockMachine.Proofs.BlockCopy.Requests
import BlockMachine.Proofs.Memory.Writes

/-!
# What a copy writes

* `BlockCopy.writesBytes_cells` — cells that lie one after the other are one string of bytes.
* `BlockCopy.writes_copy` — all lanes together write each byte of the places of the source once,
  whatever the way of the copy.
* `BlockCopy.mem_copyRequests` — a copy keeps off the slots and the view.
* `BlockCopy.cloned_of_mem_copyRequests` — a copy clones only elements of its source.
-/

set_option autoImplicit false

namespace BlockMachine

open Request

variable {σ α : Type}

/-- What two parties make item by item, or one party after the other. -/
theorem perm_flatMap_append {ι ρ : Type} (items : List ι) (first second : ι → List ρ) :
    (items.flatMap fun item => first item ++ second item).Perm
      (items.flatMap first ++ items.flatMap second) :=
  (List.flatMap_append_perm items first second).symm

namespace BlockCopy

variable {element : Element α} {source : Placed α} {first : Nat}

/-! ## Bytes -/

theorem length_chunk (source : Bytes) (start count : Nat) : (source.chunk start count).length = count := by
  simp [Bytes.chunk]

theorem chunk_append (source : Bytes) (start count more : Nat) :
    source.chunk start count ++ source.chunk (start + count) more =
      source.chunk start (count + more) := by
  simp only [Bytes.chunk, List.range_add, List.map_append, List.map_map, Function.comp_def,
    Nat.add_assoc]

/-- **Cells that lie one after the other are one string of bytes.** -/
theorem writesBytes_cells (htrivial : element.isTrivial = true) (source : Bytes)
    (position start width cells : Nat) :
    WritesBytes element position (source.chunk start (cells * width))
      ((List.range cells).flatMap fun cell =>
        [(cellRequest source position start width cell : Request σ α)]) := by
  induction cells with
  | zero =>
    rw [Nat.zero_mul]
    exact .nil element position
  | succ cells ih =>
    have hone := WritesBytes.one (σ := σ) htrivial (position + cells * width)
      (source.chunk (start + cells * width) width)
    have hlength := length_chunk source start (cells * width)
    rw [Nat.succ_mul, ← chunk_append, List.range_succ, List.flatMap_append]
    refine ih.append ?_
    rw [hlength]
    exact hone

/-- The bytes of some values. -/
theorem getElem?_chunk_bytesOf {image : Image α element.size} (himage : element.image = some image)
    {i place : Nat} {value : α} (hi : source.values[i]? = some value) (hplace : place < element.size) :
    ((bytesOf element source).chunk 0 (source.length * element.size))[i * element.size + place]? =
      some (image.byte value place) := by
  have hlt : i < source.length := (Array.getElem?_eq_some_iff.mp hi).1
  have hmul : (i + 1) * element.size ≤ source.length * element.size := Nat.mul_le_mul_right _ hlt
  obtain ⟨hdiv, hmod⟩ : (i * element.size + place) / element.size = i ∧
      (i * element.size + place) % element.size = place :=
    (Element.div_eq_and_mod_eq_iff hplace).mpr rfl
  rw [Nat.succ_mul] at hmul
  simp only [Bytes.chunk, bytesOf, List.getElem?_map,
    List.getElem?_range (show i * element.size + place < source.length * element.size by omega),
    Option.map_some, Nat.zero_add, Element.byteAt, himage, hdiv, hmod, hi]

/-! ## All lanes together -/

/-- Only what may be copied through its bytes is. -/
theorem isTrivial_of_choosePath {wideCopy trivial : Bool} {source target : Nat}
    (h : choosePath wideCopy trivial source target ≠ .elementwise) : trivial = true := by
  unfold choosePath at h
  cases trivial with
  | true => rfl
  | false => exact absurd rfl h

section Together

variable {geometry : Geometry} (hthreads : 0 < geometry.threads) (block : Nat)

include hthreads

/-- All lanes together write a string of bytes, each of them once. -/
theorem writesBytes_byteRequests (htrivial : element.isTrivial = true)
    (position : Nat) (aligned : Bool) (source : Bytes) :
    ∃ requests : List (Request σ α),
      ((List.range geometry.threads).flatMap fun lane =>
        byteRequests (geometry.context block lane) position aligned source).Perm requests ∧
      WritesBytes element position (source.chunk 0 source.length) requests := by
  have hshare := fun count (work : Nat → List (Request σ α)) =>
    Geometry.perm_flatMap_share hthreads block count work
  cases aligned with
  | false =>
    refine ⟨_, hshare source.length fun index => [cellRequest source position 0 1 index], ?_⟩
    have hcells := writesBytes_cells (σ := σ) htrivial source position 0 1 source.length
    rwa [Nat.mul_one] at hcells
  | true =>
    have hwhole : source.length / wordBytes * wordBytes ≤ source.length := Nat.div_mul_le_self ..
    have hwords := writesBytes_cells (σ := σ) htrivial source position 0 wordBytes
      (source.length / wordBytes)
    have hrest := writesBytes_cells (σ := σ) htrivial source
      (position + source.length / wordBytes * wordBytes) (source.length / wordBytes * wordBytes) 1
      (source.length - source.length / wordBytes * wordBytes)
    have hlength : source.length = source.length / wordBytes * wordBytes +
        (source.length - source.length / wordBytes * wordBytes) := by omega
    refine ⟨_, (perm_flatMap_append _ _ _).trans ((hshare _ _).append (hshare _ _)), ?_⟩
    rw [hlength, ← chunk_append, Nat.zero_add, ← hlength]
    refine hwords.append ?_
    rw [length_chunk]
    rwa [Nat.mul_one] at hrest

/-- All lanes together clone the elements and write them. -/
theorem writes_elements (hclone : ∀ value ∈ source.values.toList, ∃ copy, element.clone value = .ok copy)
    {target : WriteView}
    (htarget : 0 < element.size → target.position / target.cell = first) :
    Writes element first source.values.toList ((List.range geometry.threads).flatMap fun lane =>
      ((geometry.context block lane).share source.length).flatMap
        (elementRequests element source target) : List (Request σ α)) := by
  have hfront : ∀ count ≤ source.length, Writes element first (source.values.toList.take count)
      ((List.range count).flatMap (elementRequests element source target) : List (Request σ α)) := by
    intro count
    induction count with
    | zero => exact fun _ => .of_silent _ fun _ hr => absurd hr List.not_mem_nil
    | succ count ih =>
      intro hle
      have hlt : count < source.values.size := hle
      have hvalue : source.values[count]? = some source.values[count] :=
        Array.getElem?_eq_getElem hlt
      obtain ⟨copy, hcopy⟩ := hclone source.values[count] (Array.getElem_mem_toList hlt)
      have hlength : (source.values.toList.take count).length = count := by
        rw [List.length_take, Array.length_toList]
        omega
      have hone : Writes element (first + count) [source.values[count]]
          [(.write (target.position / target.cell + count) copy : Request σ α)] :=
        Writes.write (.inr hcopy) fun hpos => by rw [htarget hpos]
      have hsilent : ∀ request ∈ [(.clone source.values[count] : Request σ α)], request.Silent := by
        intro request hr
        rw [List.mem_singleton.mp hr]
        trivial
      rw [List.take_add_one, Array.getElem?_toList, hvalue, List.range_succ, List.flatMap_append]
      refine (ih (Nat.le_of_lt hlt)).append ?_
      rw [hlength]
      simp only [List.flatMap_cons, List.flatMap_nil, List.append_nil, elementRequests, hvalue, hcopy,
        Option.toList_some]
      exact hone.silent_append hsilent
  have hall := hfront source.length (Nat.le_refl _)
  rw [List.take_of_length_le (by rw [Array.length_toList]; exact Nat.le_refl _)] at hall
  exact hall.perm (Geometry.perm_flatMap_share hthreads block _ _).symm

/-- All lanes together write the bytes of the elements. -/
theorem writes_bytes (htrivial : element.isTrivial = true) (first : Nat) (source : Placed α) (aligned : Bool) :
    Writes element first source.values.toList ((List.range geometry.threads).flatMap fun lane =>
      byteRequests (geometry.context block lane) (first * element.size) aligned
        (bytesOf element source) : List (Request σ α)) := by
  obtain ⟨image, himage⟩ := Option.isSome_iff_exists.mp htrivial
  obtain ⟨requests, hperm, hwrites⟩ := writesBytes_byteRequests (σ := σ) hthreads block htrivial
    (first * element.size) aligned (bytesOf element source)
  refine (hwrites.writes himage ?_ fun i value hi place hplace => ?_).perm hperm.symm
  · rw [length_chunk, Array.length_toList]
    rfl
  · exact getElem?_chunk_bytesOf himage (by rwa [Array.getElem?_toList] at hi) hplace

/-- **A copy writes each byte of the places of its source once**, whatever its way; where it makes clones, these
must not panic. -/
theorem writes_copy (source : Placed α) (first address length : Nat)
    (hclone : choosePath geometry.wideCopy element.isTrivial source.address
      ((WriteView.whole address element.size length).dropped first).address = .elementwise →
        ∀ value ∈ source.values.toList, ∃ copy, element.clone value = .ok copy) :
    Writes element first source.values.toList ((List.range geometry.threads).flatMap fun lane =>
      copyRequests element (geometry.context block lane) source
        ((WriteView.whole address element.size length).dropped first) : List (Request σ α)) := by
  have hposition : ((WriteView.whole address element.size length).dropped first).position =
      first * element.size := Nat.zero_add _
  have hquotient : 0 < element.size →
      ((WriteView.whole address element.size length).dropped first).position /
        ((WriteView.whole address element.size length).dropped first).cell = first := by
    intro hpos
    rw [hposition]
    exact Nat.mul_div_cancel _ hpos
  unfold copyRequests
  refine Writes.perm (Writes.silent_append ?_ ?_) (perm_flatMap_append _ _ _).symm
  · intro request hr
    obtain ⟨lane, _, hr⟩ := List.mem_flatMap.mp hr
    split at hr
    · rw [List.mem_singleton.mp hr]
      trivial
    · cases hr
  · show Writes element first source.values.toList ((List.range geometry.threads).flatMap fun lane =>
      pathRequests element (geometry.context block lane) source
        ((WriteView.whole address element.size length).dropped first)
        (choosePath geometry.wideCopy element.isTrivial source.address
          ((WriteView.whole address element.size length).dropped first).address))
    have hbytes := fun htrivial : element.isTrivial = true =>
      writes_bytes (σ := σ) hthreads block htrivial first source (onWord source.address &&
        onWord ((WriteView.whole address element.size length).dropped first).address)
    by_cases hpath : choosePath geometry.wideCopy element.isTrivial source.address
      ((WriteView.whole address element.size length).dropped first).address = .elementwise
    · rw [hpath]
      exact writes_elements hthreads block (hclone hpath) hquotient
    · simp only [pathRequests_of_ne hpath, hposition]
      exact hbytes (isTrivial_of_choosePath hpath)

end Together

theorem mem_elementRequests {target : WriteView} {index : Nat} {request : Request σ α}
    (h : request ∈ elementRequests element source target index) :
    request.slot? = none ∧ request.item? = none ∧ request.Whole := by
  unfold elementRequests at h
  split at h
  · cases h
  · split at h
    · rw [List.mem_singleton.mp h]
      exact ⟨rfl, rfl, trivial⟩
    · rcases List.mem_cons.mp h with rfl | h
      · exact ⟨rfl, rfl, trivial⟩
      · rw [List.mem_singleton.mp h]
        exact ⟨rfl, rfl, trivial⟩

theorem mem_byteRequests {context : LaneContext} {position : Nat} {aligned : Bool} {bytes : Bytes}
    {request : Request σ α} (h : request ∈ byteRequests context position aligned bytes) :
    request.slot? = none ∧ request.item? = none := by
  have hcells : ∀ (items : List Nat) (position start width : Nat),
      request ∈ items.flatMap (fun cell => [cellRequest bytes position start width cell]) →
        request.slot? = none ∧ request.item? = none := by
    intro items position start width hr
    obtain ⟨cell, _, hr⟩ := List.mem_flatMap.mp hr
    rw [List.mem_singleton.mp hr]
    exact ⟨rfl, rfl⟩
  unfold byteRequests at h
  cases aligned with
  | false => exact hcells _ _ _ _ h
  | true =>
    rcases List.mem_append.mp h with h | h
    · exact hcells _ _ _ _ h
    · exact hcells _ _ _ _ h

/-- **A copy keeps off the slots and the view**, and writes whole elements if it goes element by element. -/
theorem mem_copyRequests {context : LaneContext} {target : WriteView} {request : Request σ α}
    (h : request ∈ copyRequests element context source target) :
    request.slot? = none ∧ request.item? = none ∧
      (ByElement element context.wideCopy → request.Whole) := by
  unfold copyRequests at h
  rcases List.mem_append.mp h with hr | hr
  · split at hr
    · rw [List.mem_singleton.mp hr]
      exact ⟨rfl, rfl, fun _ => trivial⟩
    · cases hr
  · by_cases hpath : choosePath context.wideCopy element.isTrivial source.address target.address =
      .elementwise
    · rw [hpath] at hr
      obtain ⟨index, _, hr⟩ := List.mem_flatMap.mp hr
      obtain ⟨hslot, hitem, hwhole⟩ := mem_elementRequests hr
      exact ⟨hslot, hitem, fun _ => hwhole⟩
    · rw [pathRequests_of_ne hpath] at hr
      obtain ⟨hslot, hitem⟩ := mem_byteRequests hr
      exact ⟨hslot, hitem, fun hby => absurd (choosePath_of_byElement hby _ _) hpath⟩

/-- **A copy clones only elements of its source.** -/
theorem cloned_of_mem_copyRequests {context : LaneContext} {target : WriteView} {request : Request σ α}
    (h : request ∈ copyRequests element context source target) {value : α}
    (hvalue : request.cloned? = some value) : value ∈ source.values.toList := by
  have helements : ∀ index, request ∈ elementRequests element source target index →
      value ∈ source.values.toList := by
    intro index hr
    unfold elementRequests at hr
    cases hitem : source.values[index]? with
    | none =>
      rw [hitem] at hr
      cases hr
    | some item =>
      have hmem : item ∈ source.values.toList :=
        List.mem_of_getElem? (by rwa [Array.getElem?_toList])
      simp only [hitem] at hr
      split at hr
      · rw [List.mem_singleton.mp hr] at hvalue
        cases hvalue
        exact hmem
      · rcases List.mem_cons.mp hr with rfl | hr
        · cases hvalue
          exact hmem
        · rw [List.mem_singleton.mp hr] at hvalue
          cases hvalue
  have hcells : ∀ (items : List Nat) (position start width : Nat),
      request ∈ items.flatMap (fun cell =>
        [cellRequest (bytesOf element source) position start width cell]) →
          value ∈ source.values.toList := by
    intro items position start width hr
    obtain ⟨cell, _, hr⟩ := List.mem_flatMap.mp hr
    rw [List.mem_singleton.mp hr] at hvalue
    cases hvalue
  unfold copyRequests at h
  rcases List.mem_append.mp h with hr | hr
  · split at hr
    · rw [List.mem_singleton.mp hr] at hvalue
      cases hvalue
    · cases hr
  · by_cases hpath : choosePath context.wideCopy element.isTrivial source.address target.address =
      .elementwise
    · rw [hpath] at hr
      obtain ⟨index, _, hr⟩ := List.mem_flatMap.mp hr
      exact helements index hr
    · rw [pathRequests_of_ne hpath] at hr
      unfold byteRequests at hr
      split at hr
      · rcases List.mem_append.mp hr with hr | hr
        · exact hcells _ _ _ _ hr
        · exact hcells _ _ _ _ hr
      · exact hcells _ _ _ _ hr

end BlockCopy

end BlockMachine
