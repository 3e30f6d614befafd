import BlockMachine.BlockCopy
import BlockMachine.Proofs.Lane.Segment
import BlockMachine.Proofs.Lane.Share

/-!
# What the lanes of a copy ask

* `BlockCopy.elementRequests`, `BlockCopy.byteRequests` — what a lane asks on the two ways to copy, and
  `BlockCopy.copyRequests` what it asks in all.
* `BlockCopy.asks_copy` — a copy that fits makes these requests and ends.
* `BlockCopy.copy_eq_fault` — a copy that does not fit is a fault before anything is asked.
-/

set_option autoImplicit false

namespace BlockMachine

variable {σ α : Type}

namespace WriteView

/-- The cells from one of them on. -/
def dropped (view : WriteView) (start : Nat) : WriteView :=
  ⟨view.address + start * view.cell, view.position + start * view.cell, view.cell,
    view.length - start⟩

theorem dropFirst_eq {view : WriteView} {start : Nat} (h : start ≤ view.length) :
    view.dropFirst start = .ok (view.dropped start) := if_pos h

theorem cast_eq {view : WriteView} {cell length : Nat} (hfits : length * cell ≤ view.length * view.cell)
    (hlimit : view.length * view.cell < Word.limit) (haligned : view.address % cell = 0) :
    view.cast cell length = .ok ⟨view.address, view.position, cell, length⟩ := by
  unfold cast
  rw [Word.mul_eq_ok (Nat.lt_of_le_of_lt hfits hlimit), Word.mul_eq_ok hlimit]
  show (if view.length * view.cell < length * cell then _ else _) = _
  rw [if_neg (Nat.not_lt.mpr hfits)]
  show (if view.address % cell ≠ 0 then _ else _) = _
  rw [if_neg (not_not_intro haligned)]
  rfl

end WriteView

namespace BlockCopy

variable {callbacks : Callbacks σ α}

/-- What a lane asks to copy one element by a clone. -/
def elementRequests (element : Element α) (source : Placed α) (target : WriteView) (index : Nat) :
    List (Request σ α) :=
  match source.values[index]? with
  | none => []
  | some value =>
    match element.clone value with
    | .error _ => [.clone value]
    | .ok copy => [.clone value, .write (target.position / target.cell + index) copy]

/-- The write of one of several cells that lie one after the other. -/
def cellRequest (source : Bytes) (position start width cell : Nat) : Request σ α :=
  .writeBytes (position + cell * width) (source.chunk (start + cell * width) width)

/-- Whether a copy goes element by element wherever the elements lie: they cannot be copied through their
bytes, or the generation has no wide copies. -/
def ByElement (element : Element α) (wideCopy : Bool) : Prop :=
  element.isTrivial = false ∨ wideCopy = false

theorem choosePath_of_byElement {element : Element α} {wideCopy : Bool} (h : ByElement element wideCopy)
    (source target : Nat) : choosePath wideCopy element.isTrivial source target = .elementwise := by
  rcases h with h | h <;> simp [choosePath, h]

/-- What a lane asks to copy its share of a string of bytes. -/
def byteRequests (context : LaneContext) (position : Nat) (aligned : Bool) (source : Bytes) :
    List (Request σ α) :=
  let words := source.length / wordBytes
  let whole := words * wordBytes
  if aligned then
    (context.share words).flatMap (fun word => [cellRequest source position 0 wordBytes word]) ++
      (context.share (source.length - whole)).flatMap
        (fun index => [cellRequest source (position + whole) whole 1 index])
  else (context.share source.length).flatMap (fun index => [cellRequest source position 0 1 index])

/-- What a lane asks on one of the ways to copy. -/
def pathRequests (element : Element α) (context : LaneContext) (source : Placed α)
    (target : WriteView) : CopyPath → List (Request σ α)
  | .elementwise => (context.share source.length).flatMap (elementRequests element source target)
  | .wide | .bytewise => byteRequests context target.position
      (onWord source.address && onWord target.address) (bytesOf element source)

theorem pathRequests_of_ne {element : Element α} {context : LaneContext} {source : Placed α}
    {target : WriteView} {path : CopyPath} (h : path ≠ .elementwise) :
    (pathRequests element context source target path : List (Request σ α)) =
      byteRequests context target.position (onWord source.address && onWord target.address)
        (bytesOf element source) := by
  cases path with
  | elementwise => exact absurd rfl h
  | wide => rfl
  | bytewise => rfl

/-- What a lane asks in a copy. -/
def copyRequests (element : Element α) (context : LaneContext) (source : Placed α)
    (target : WriteView) : List (Request σ α) :=
  let path := choosePath context.wideCopy element.isTrivial source.address target.address
  (if context.lane = 0 then
    [.note (.bulkCopy ⟨context.block, source.length, path, source.address, target.address⟩)] else []) ++
    pathRequests element context source target path

theorem asks_forShare {context : LaneContext} (hlane : context.lane < context.blockSize) (count : Nat)
    {work : Nat → Lane σ α Unit} {requests : Nat → List (Request σ α)}
    (h : ∀ index < count, ∀ sight, Lane.Asks callbacks (work index) sight (requests index) (.done ()))
    (sight : Sight σ) :
    Lane.Asks callbacks (forShare context count work) sight ((context.share count).flatMap requests)
      (.done ()) := by
  have hsize : context.blockSize ≠ 0 := by omega
  unfold forShare
  rw [if_neg hsize]
  apply Lane.asks_forEach
  intro index hindex
  exact h index ((LaneContext.mem_share hlane).mp hindex).1

/-- The write of a cell of a view. -/
theorem asks_writeBytes (callbacks : Callbacks σ α) {view : WriteView} {index : Nat}
    (h : index < view.length) (bytes : List UInt8) (sight : Sight σ) :
    Lane.Asks callbacks (view.writeBytes index bytes : Lane σ α Unit) sight
      [.writeBytes (view.position + index * view.cell) bytes] (.done ()) := by
  have hplace : view.place index = .ok (view.position + index * view.cell) := if_pos h
  exact (Lane.asks_ofExcept hplace sight).seq (.one rfl (.none ..))

theorem mod_wordBytes_of_onWord {address : Nat} (h : onWord address = true) : address % wordBytes = 0 := by
  simpa [onWord] using h

/-- **A copy of bytes that fits** makes the requests of its way and ends. -/
theorem asks_copyBytes (callbacks : Callbacks σ α) {context : LaneContext}
    (hlane : context.lane < context.blockSize) {target : WriteView} (hcell : target.cell = 1) {source : Bytes}
    (hfits : source.length ≤ target.length) (hlimit : target.length < Word.limit)
    (sight : Sight σ) :
    Lane.Asks callbacks (copyBytes context target source : Lane σ α Unit) sight
      (byteRequests context target.position (onWord source.address && onWord target.address) source)
      (.done ()) := by
  unfold copyBytes byteRequests
  rw [if_neg (Nat.not_lt.mpr hfits)]
  by_cases haligned : (onWord source.address && onWord target.address) = true
  · rw [if_pos haligned, if_pos haligned]
    obtain ⟨hsource, htarget⟩ := (Bool.and_eq_true _ _).mp haligned
    have hwhole : source.length / wordBytes * wordBytes ≤ source.length := Nat.div_mul_le_self ..
    have hwords : source.words (source.length / wordBytes * wordBytes) =
        .ok (source.length / wordBytes) := by
      have hmod := mod_wordBytes_of_onWord hsource
      unfold Bytes.words
      rw [if_neg (by simp [hmod]), Nat.mul_div_cancel _ (by decide)]
    have hcast : target.cast wordBytes (source.length / wordBytes) =
        .ok ⟨target.address, target.position, wordBytes, source.length / wordBytes⟩ :=
      WriteView.cast_eq (by rw [hcell]; omega) (by rw [hcell]; omega)
        (mod_wordBytes_of_onWord htarget)
    have hrest : target.dropFirst (source.length / wordBytes * wordBytes) =
        .ok (target.dropped (source.length / wordBytes * wordBytes)) :=
      WriteView.dropFirst_eq (by omega)
    refine (Lane.asks_ofExcept hwords sight).seq ((Lane.asks_ofExcept hcast _).seq ?_)
    refine (asks_forShare hlane _ (fun word hword sight => ?_) _).seq
      ((Lane.asks_ofExcept hrest _).seq (asks_forShare hlane _ (fun index hindex sight => ?_) _))
    · simp only [cellRequest, Nat.zero_add]
      exact asks_writeBytes callbacks hword _ sight
    · have hlt : index < (target.dropped (source.length / wordBytes * wordBytes)).length := by
        show index < target.length - source.length / wordBytes * wordBytes
        omega
      have h := asks_writeBytes callbacks hlt
        (source.chunk (source.length / wordBytes * wordBytes + index) 1) sight
      simpa only [cellRequest, WriteView.dropped, hcell, Nat.mul_one] using h
  · rw [if_neg haligned, if_neg haligned]
    refine asks_forShare hlane _ (fun index hindex sight => ?_) _
    have h := asks_writeBytes callbacks (Nat.lt_of_lt_of_le hindex hfits)
      (source.chunk index 1) sight
    simpa only [cellRequest, hcell, Nat.mul_one, Nat.zero_add] using h

/-- One element of a copy by clones. -/
theorem asks_element {element : Element α} (helement : callbacks.element = element)
    (hclone : ∀ value, ∃ copy, element.clone value = .ok copy) {source : Placed α}
    {target : WriteView} {index : Nat} (hindex : index < source.length)
    (hfits : source.length ≤ target.length) (sight : Sight σ) :
    Lane.Asks callbacks (do
      let value ← Lane.ofExcept (source.get index)
      let value ← Lane.clone value
      target.write index value : Lane σ α Unit) sight
      (elementRequests element source target index) (.done ()) := by
  subst helement
  have hvalue : source.values[index]? = some source.values[index] := Array.getElem?_eq_getElem hindex
  have hget : source.get index = .ok source.values[index] := by
    simp only [Placed.get, hvalue]
  obtain ⟨copy, hcopy⟩ := hclone source.values[index]
  simp only [elementRequests, hvalue, hcopy, WriteView.write,
    if_pos (Nat.lt_of_lt_of_le hindex hfits)]
  exact (Lane.asks_ofExcept hget sight).seq (.one hcopy (.one rfl (.none ..)))

/-- **A copy that fits** makes its requests and ends with the end of what it wrote. -/
theorem asks_copy {element : Element α} (helement : callbacks.element = element)
    (hclone : ∀ value, ∃ copy, element.clone value = .ok copy) {context : LaneContext}
    (hlane : context.lane < context.blockSize) {source : Placed α} {destination : WriteView}
    (hcell : destination.cell = element.size)
    (hlimit : destination.length * destination.cell < Word.limit) {first : Nat}
    (hfits : first + source.length ≤ destination.length) (hend : first + source.length < Word.limit)
    (sight : Sight σ) :
    Lane.Asks callbacks (copy element context source destination first : Lane σ α Nat) sight
      (copyRequests element context source (destination.dropped first))
      (.done (first + source.length)) := by
  have hlength : source.length ≤ (destination.dropped first).length := by
    show source.length ≤ destination.length - first
    omega
  have hdrop : destination.dropFirst first = .ok (destination.dropped first) :=
    WriteView.dropFirst_eq (by omega)
  have hrest : (destination.dropped first).length * (destination.dropped first).cell < Word.limit :=
    Nat.lt_of_le_of_lt (Nat.mul_le_mul_right _ (Nat.sub_le ..)) hlimit
  have hbytes : (bytesOf element source).length ≤
      (destination.dropped first).length * (destination.dropped first).cell := by
    show source.length * element.size ≤ (destination.dropped first).length * destination.cell
    rw [hcell]
    exact Nat.mul_le_mul_right _ hlength
  have hcast : (destination.dropped first).cast 1 (bytesOf element source).length =
      .ok ⟨(destination.dropped first).address, (destination.dropped first).position, 1,
        (bytesOf element source).length⟩ :=
    WriteView.cast_eq (by rw [Nat.mul_one]; exact hbytes) hrest (Nat.mod_one _)
  -- what comes after the record, on each of the ways
  have hway : ∀ path sight, Lane.Asks callbacks (match path with
      | .elementwise => do
        copyElements context (destination.dropped first) source
        Lane.ofExcept (Word.add first source.length)
      | .wide | .bytewise => do
        let target ← Lane.ofExcept
          ((destination.dropped first).cast 1 (bytesOf element source).length)
        copyBytes context target (bytesOf element source)
        Lane.ofExcept (Word.add first source.length) : Lane σ α Nat) sight
      (pathRequests element context source (destination.dropped first) path)
      (.done (first + source.length)) := by
    intro path sight
    rw [← List.append_nil (pathRequests element context source (destination.dropped first) path)]
    have hcopy : Lane.Asks callbacks (copyBytes context ⟨(destination.dropped first).address,
        (destination.dropped first).position, 1, (bytesOf element source).length⟩
        (bytesOf element source)) sight _ (.done ()) :=
      asks_copyBytes callbacks hlane rfl (Nat.le_refl _) (Nat.lt_of_le_of_lt hbytes hrest) sight
    cases path with
    | elementwise =>
      have helements := asks_forShare hlane source.length (fun index hindex sight =>
        asks_element helement hclone hindex hlength sight) sight
      exact helements.seq (Lane.asks_ofExcept (Word.add_eq_ok hend) _)
    | wide =>
      exact (Lane.asks_ofExcept hcast _).seq (hcopy.seq (Lane.asks_ofExcept (Word.add_eq_ok hend) _))
    | bytewise =>
      exact (Lane.asks_ofExcept hcast _).seq (hcopy.seq (Lane.asks_ofExcept (Word.add_eq_ok hend) _))
  unfold copy copyRequests
  refine (Lane.asks_ofExcept hdrop sight).seq ?_
  rw [if_neg (Nat.not_lt.mpr hlength)]
  by_cases hzero : context.lane = 0
  · simp only [hzero, if_true]
    exact .one rfl (hway _ _)
  · simp only [hzero, if_false]
    exact hway _ _

/-- **A copy that does not fit** is a fault before anything is asked. -/
theorem copy_eq_fault (element : Element α) (context : LaneContext) (source : Placed α)
    {destination : WriteView} {first : Nat} (h : destination.length < first + source.length) :
    ∃ panic : Panic, panic.isRelease = false ∧
      (copy element context source destination first : Lane σ α Nat) = .fault panic := by
  unfold copy
  by_cases hfirst : first ≤ destination.length
  · have hlength : (destination.dropped first).length < source.length := by
      show destination.length - first < source.length
      omega
    rw [WriteView.dropFirst_eq hfirst]
    refine ⟨.copyPastEnd source.length, rfl, ?_⟩
    show (if (destination.dropped first).length < source.length then _ else _) = _
    rw [if_pos hlength]
  · refine ⟨.offsetOutOfRange first destination.length, rfl, ?_⟩
    rw [WriteView.dropFirst, if_neg hfirst]
    rfl

end BlockCopy

end BlockMachine
