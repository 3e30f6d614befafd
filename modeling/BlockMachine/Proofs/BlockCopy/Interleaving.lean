import BlockMachine.Proofs.BlockCopy.Writes
import BlockMachine.Proofs.Interleaving.Standstill
import BlockMachine.Proofs.Interleaving.Course

/-!
# Copies by a whole block, in any order of the lanes

* `Element.copied` — what the clone of a value gives.
* `BlockCopy.pieces_copy` — whatever its way, a copy writes at each byte of its places the copied value.
* `Crew.Refusing.run` — a block whose lanes all begin with a fault does nothing else.
* `BlockCopy.copies_run` — whatever turns the lanes take, a copy that fits leaves its source at its places and
  the rest of the destination as it was, and one that does not fit panics in every lane and writes nothing.
-/

set_option autoImplicit false

namespace BlockMachine

open History Request

variable {σ α β : Type}

/-- What the clone of a value gives. -/
def Element.copied (element : Element α) (value : α) : α := (element.clone value).toOption.getD value

namespace BlockCopy

variable {element : Element α} {source : Placed α}

/-! ## What is written -/

/-- A clone is written to the place of its number. -/
theorem piece_of_mem_elementRequests {target : WriteView} {index slot place : Nat} {request : Request σ α}
    (h : request ∈ elementRequests element source target index) {piece : α ⊕ UInt8}
    (hpiece : request.piece? element slot place = some piece) :
    ∃ value, source.values[index]? = some value ∧ target.position / target.cell + index = slot ∧
      piece = element.pieceOf (element.copied value) place := by
  unfold elementRequests at h
  cases hvalue : source.values[index]? with
  | none => simp only [hvalue, List.not_mem_nil] at h
  | some value =>
    refine ⟨value, rfl, ?_⟩
    simp only [hvalue] at h
    cases hclone : element.clone value with
    | error panic =>
      simp only [hclone, List.mem_singleton] at h
      subst h
      cases hpiece
    | ok copy =>
      simp only [hclone, List.mem_cons, List.not_mem_nil, or_false] at h
      rcases h with rfl | rfl
      · cases hpiece
      · simp only [piece?, Option.ite_none_right_eq_some, Option.some.injEq] at hpiece
        rw [Element.copied, hclone]
        exact ⟨hpiece.1, hpiece.2.symm⟩

/-- **A copy writes at each byte of its places the copied value**, whatever its way. -/
theorem pieces_copy {geometry : Geometry} (hthreads : 0 < geometry.threads) (block : Nat)
    (hclone : ∀ value, ∃ copy, element.clone value = .ok copy)
    (htrivial : element.isTrivial = true → ∀ value, element.clone value = .ok value)
    (first address length : Nat) {i place : Nat} {value : α} (hi : source.values[i]? = some value)
    (hplace : place < element.size) :
    pieces element (first + i) place ((List.range geometry.threads).flatMap fun lane =>
      (copyRequests element (geometry.context block lane) source
        ((WriteView.whole address element.size length).dropped first) : List (Request σ α))) =
      [element.pieceOf (element.copied value) place] := by
  obtain ⟨copy, hcopy, hpieces⟩ := (writes_copy (σ := σ) hthreads block source first address length
    fun _ value _ => hclone value).inside i value (by rwa [Array.getElem?_toList]) place hplace
  rw [hpieces]
  refine congrArg (fun piece => [piece]) ?_
  by_cases hbytes : element.isTrivial = true
  · -- a value and its clone are the same then
    have hvalue := htrivial hbytes value
    rw [Element.copied, hvalue]
    rcases hcopy with rfl | hcopy
    · rfl
    · rw [hvalue] at hcopy
      obtain rfl := Except.ok.inj hcopy
      rfl
  · -- the only piece there comes from the clone of the element with this number
    have hmem : element.pieceOf copy place ∈ pieces element (first + i) place
        ((List.range geometry.threads).flatMap fun lane =>
          (copyRequests element (geometry.context block lane) source
            ((WriteView.whole address element.size length).dropped first) : List (Request σ α))) :=
      hpieces ▸ List.mem_singleton_self _
    obtain ⟨request, hr, hpiece⟩ := List.mem_filterMap.mp hmem
    obtain ⟨lane, _, hr⟩ := List.mem_flatMap.mp hr
    unfold copyRequests at hr
    rw [choosePath_of_byElement (.inl (Bool.eq_false_iff.mpr hbytes))] at hr
    rcases List.mem_append.mp hr with hnote | hr
    · split at hnote
      · rw [List.mem_singleton.mp hnote] at hpiece
        cases hpiece
      · cases hnote
    · obtain ⟨index, _, hr⟩ := List.mem_flatMap.mp hr
      obtain ⟨other, hother, hslot, heq⟩ := piece_of_mem_elementRequests hr hpiece
      have hquotient : ((WriteView.whole address element.size length).dropped first).position /
          ((WriteView.whole address element.size length).dropped first).cell = first := by
        show (0 + first * element.size) / element.size = first
        rw [Nat.zero_add, Nat.mul_div_cancel _ (Nat.zero_lt_of_lt hplace)]
      rw [hquotient] at hslot
      obtain rfl : index = i := Nat.add_left_cancel hslot
      obtain rfl := Option.some.inj (hother.symm.trans hi)
      exact heq

/-- **What a copy leaves**, in whatever order its requests are made. -/
theorem output_after_copy {geometry : Geometry} (hthreads : 0 < geometry.threads) (block : Nat)
    (hzero : element.size = 0 → ∀ a b : α, a = b)
    (hclone : ∀ value, ∃ copy, element.clone value = .ok copy)
    (htrivial : element.isTrivial = true → ∀ value, element.clone value = .ok value)
    {first address : Nat} {store : Store α} (hfits : first + source.length ≤ store.output.size)
    {requests : List (Request σ α)}
    (hperm : ((List.range geometry.threads).flatMap fun lane =>
      (copyRequests element (geometry.context block lane) source
        ((destination element store.output address).dropped first) : List (Request σ α))).Perm requests) :
    (store.after element requests).output.toList =
      store.output.toList.take first ++ source.values.toList.map element.copied ++
        store.output.toList.drop (first + source.length) := by
  have hwrites := (writes_copy (σ := σ) hthreads block source first address store.output.size
    fun _ value _ => hclone value).perm hperm
  have hlength : (source.values.toList.map element.copied).length = source.length := by
    rw [List.length_map, Array.length_toList]
    rfl
  have hlength' : source.values.toList.length = source.length := Array.length_toList
  rw [← hlength] at hfits ⊢
  refine Store.output_after_pieces hzero (fun i value hi place hplace => ?_) (fun slot hslot => ?_) store hfits
  · rw [List.getElem?_map, Array.getElem?_toList] at hi
    obtain ⟨original, horiginal, rfl⟩ := Option.map_eq_some_iff.mp hi
    have hpieces := pieces_copy (σ := σ) hthreads block hclone htrivial first address store.output.size
      horiginal hplace
    have hsame := pieces_perm element (first + i) place hperm
    rw [destination, hpieces] at hsame
    exact (List.singleton_perm.mp hsame).symm
  · exact hwrites.outside slot (by rw [hlength']; rw [hlength] at hslot; exact hslot)

/-- Lanes that keep off the slots and the view do not clash. -/
theorem apart_of_quiet (callbacks : Callbacks σ α) (lanes : Nat) {stage : Stage σ α}
    (h : ∀ lane, ∀ request ∈ stage lane, request.slot? = none ∧ request.item? = none) :
    Stage.Apart callbacks lanes stage := by
  intro i _ j _ _ request hr other hother hclash
  obtain ⟨hslot, hitem⟩ := h i request hr
  obtain ⟨hslot', _⟩ := h j other hother
  rcases hclash with ⟨slot, _, h⟩ | ⟨slot, _, h⟩ | ⟨index, h, _⟩
  · rw [hslot'] at h
    cases h
  · rw [hslot] at h
    cases h
  · rw [hitem] at h
    cases h

/-- The lanes of a copy do not clash. -/
theorem apart_copy (callbacks : Callbacks σ α) (lanes : Nat) (context : Nat → LaneContext)
    (target : WriteView) :
    Stage.Apart callbacks lanes fun lane => copyRequests element (context lane) source target :=
  apart_of_quiet callbacks lanes fun _ _ hr =>
    have hquiet := mem_copyRequests hr
    ⟨hquiet.1, hquiet.2.1⟩

end BlockCopy

/-! ## Lanes that begin with a fault -/

namespace Crew

variable {lanes : Nat} {crew : Crew σ α β} {panic : Panic}

/-- A block of which every lane is about to unwind, or has. -/
structure Refusing (lanes : Nat) (panic : Panic) (crew : Crew σ α β) : Prop where
  length : crew.stations.length = lanes
  stands : ∀ (lane : Nat) (station : Station σ α β), crew.stations[lane]? = some station →
    station = .running (.fault panic) ∨ station = .unwound panic

theorem Refusing.turn (h : crew.Refusing lanes panic) (callbacks : Callbacks σ α) (lane : Nat)
    (store : Store α) :
    (crew.turn callbacks lane store).1.Refusing lanes panic ∧ (crew.turn callbacks lane store).2 = store := by
  unfold Crew.turn
  cases hs : crew.stations[lane]? with
  | none => exact ⟨h, rfl⟩
  | some station =>
    rcases h.stands lane station hs with rfl | rfl
    · refine ⟨⟨List.length_set.trans h.length, fun other station hother => ?_⟩, rfl⟩
      change (crew.stations.set lane (.unwound panic))[other]? = some station at hother
      rw [List.getElem?_set] at hother
      split at hother
      · split at hother
        · exact .inr (Option.some.inj hother).symm
        · cases hother
      · exact h.stands other station hother
    · exact ⟨h, rfl⟩

/-- **Such a block does nothing but unwind.** -/
theorem Refusing.run (h : crew.Refusing lanes panic) (callbacks : Callbacks σ α) (store : Store α)
    (turns : List Nat) :
    (crew.run callbacks store turns).1.Refusing lanes panic ∧ (crew.run callbacks store turns).2 = store := by
  induction turns generalizing crew store with
  | nil => exact ⟨h, rfl⟩
  | cons lane rest ih =>
    obtain ⟨hturn, hstore⟩ := h.turn callbacks lane store
    obtain ⟨hrest, hsame⟩ := ih hturn (crew.turn callbacks lane store).2
    exact ⟨hrest, hsame.trans hstore⟩

/-- And it can be brought to its end. -/
theorem Refusing.exists_run (h : crew.Refusing lanes panic) (callbacks : Callbacks σ α) (store : Store α) :
    ∃ turns, (crew.run callbacks store turns).1.isOver = true := by
  obtain ⟨turns, hrests⟩ := exists_standstill callbacks crew store
  refine ⟨turns, List.all_eq_true.mpr fun station hmem => ?_⟩
  obtain ⟨lane, hs⟩ := List.mem_iff_getElem?.mp hmem
  rcases (h.run callbacks store turns).1.stands lane station hs with rfl | rfl
  · have hrest := hrests lane
    rw [Rests, hs] at hrest
    exact hrest.elim
  · rfl

end Crew

/-! ## Runs -/

namespace BlockCopy

variable {callbacks : Callbacks σ α} {source : Placed α} {geometry : Geometry} {block address first : Nat}
  {slots : Array σ} {store : Store α} {turns : List Nat}

/-- A block whose lanes are about to copy a source to the places of a destination from number `first` on. -/
def crew (element : Element α) (geometry : Geometry) (block : Nat) (source : Placed α) (output : Array α)
    (address first : Nat) (slots : Array σ) : Crew σ α Nat :=
  Crew.start slots ((List.range geometry.threads).map fun lane =>
    copy element (geometry.context block lane) source (destination element output address) first)

/-- What holds of a block whose copy fits, and of what it leaves, after some turns of its lanes. -/
structure Copies (callbacks : Callbacks σ α) (threads first : Nat) (source : Placed α) (store : Store α)
    (reached : Crew σ α Nat × Store α) : Prop where
  /-- No lane unwinds. -/
  well : reached.1.poisoned = false ∧ reached.1.fault = none
  /-- The block can be brought to its end. -/
  ends : ∃ more, (reached.1.run callbacks reached.2 more).1.isOver = true
  /-- At the end every lane has returned the end of what was written. -/
  finished : reached.1.isOver = true →
    ∀ lane < threads, reached.1.stations[lane]? = some (.finished (first + source.length))
  /-- At the end the copied values lie at their places, and everything else is as it was. -/
  output : reached.1.isOver = true → reached.2.output.toList =
    store.output.toList.take first ++ source.values.toList.map callbacks.element.copied ++
      store.output.toList.drop (first + source.length)
  /-- If clones are equal to their originals, that is the source itself. -/
  same : reached.1.isOver = true → (∀ value, callbacks.element.clone value = .ok value) →
    reached.2.output.toList = store.output.toList.take first ++ source.values.toList ++
      store.output.toList.drop (first + source.length)

/-- What holds of a block whose copy does not fit, after some turns of its lanes. -/
structure Refuses (callbacks : Callbacks σ α) (threads : Nat) (panic : Panic) (store : Store α)
    (reached : Crew σ α Nat × Store α) : Prop where
  /-- Nothing is written. -/
  store : reached.2 = store
  /-- No lane does anything but panic. -/
  panics : reached.1.Refusing threads panic
  ends : ∃ more, (reached.1.run callbacks reached.2 more).1.isOver = true
  /-- At the end every lane has panicked. -/
  unwound : reached.1.isOver = true →
    ∀ lane < threads, reached.1.stations[lane]? = some (.unwound panic)

/-- The panic of a copy that does not fit. -/
def refusal (first length : Nat) (source : Placed α) : Panic :=
  if first ≤ length then .copyPastEnd source.length else .offsetOutOfRange first length

theorem copy_eq_refusal (element : Element α) (context : LaneContext) (source : Placed α)
    {view : WriteView} (h : ¬ (first ≤ view.length ∧ source.length ≤ view.length - first)) :
    (copy element context source view first : Lane σ α Nat) =
      .fault (refusal first view.length source) := by
  unfold copy refusal
  by_cases hfirst : first ≤ view.length
  · have hlength : (view.dropped first).length < source.length := by
      show view.length - first < source.length
      omega
    rw [WriteView.dropFirst_eq hfirst, if_pos hfirst]
    show (if (view.dropped first).length < source.length then _ else _) = _
    rw [if_pos hlength]
  · rw [WriteView.dropFirst, if_neg hfirst, if_neg hfirst]
    rfl

/-- A copy that fits is a run of one stage, in which every lane returns the end of what was written. -/
theorem runs_copy (hthreads : 0 < geometry.threads) (block address : Nat) (slots : Array σ)
    (hclone : ∀ value, ∃ copy, callbacks.element.clone value = .ok copy)
    (hlength : store.output.size < Word.limit)
    (hbytes : store.output.size * callbacks.element.size < Word.limit)
    (hfits : first + source.length ≤ store.output.size) :
    Block.Runs callbacks geometry.threads
      (fun lane => (copy callbacks.element (geometry.context block lane) source
        (destination callbacks.element store.output address) first : Lane σ α Nat))
      ⟨slots, store.journal.calls⟩
      [fun lane => copyRequests callbacks.element (geometry.context block lane) source
        ((destination callbacks.element store.output address).dropped first)]
      (fun _ => .finished (first + source.length)) := by
  refine .stop (fun lane hlane => ?_) (apart_copy callbacks _ _ _) ⟨0, hthreads, rfl⟩
  have hasks : Lane.Asks callbacks (copy callbacks.element (geometry.context block lane) source
      (destination callbacks.element store.output address) first : Lane σ α Nat)
      ⟨slots, store.journal.calls⟩ _ (.done (first + source.length)) :=
    asks_copy rfl hclone hlane rfl hbytes hfits (Nat.lt_of_le_of_lt hfits hlength) _
  rw [hasks.segment]
  simp

/-- A copy that fits, whatever turns the lanes take. -/
theorem copies_of_fits (hthreads : 0 < geometry.threads)
    (hzero : callbacks.element.size = 0 → ∀ a b : α, a = b)
    (hclone : ∀ value, ∃ copy, callbacks.element.clone value = .ok copy)
    (htrivial : callbacks.element.isTrivial = true → ∀ value, callbacks.element.clone value = .ok value)
    (hlength : store.output.size < Word.limit)
    (hbytes : store.output.size * callbacks.element.size < Word.limit)
    (hfits : first + source.length ≤ store.output.size) :
    Copies callbacks geometry.threads first source store
      ((crew callbacks.element geometry block source store.output address first slots).run callbacks
        store turns) := by
  have hruns := runs_copy hthreads block address slots hclone hlength hbytes hfits
  have hends : Block.EndWell geometry.threads
      (fun _ => (.finished (first + source.length) : Stop σ α Nat)) := fun _ _ => ⟨_, rfl⟩
  have hstart : Crew.Follows callbacks geometry.threads ⟨slots, store.journal.calls⟩ _ _
      (crew callbacks.element geometry block source store.output address first slots)
      store.journal.calls [] :=
    Crew.Follows.start hruns fun _ _ => rfl
  have hfollows := hstart.run turns
  rw [List.nil_append] at hfollows
  have houtput : ((crew callbacks.element geometry block source store.output address first slots).run
      callbacks store turns).1.isOver = true →
        ((crew callbacks.element geometry block source store.output address first slots).run
          callbacks store turns).2.output.toList =
          store.output.toList.take first ++ source.values.toList.map callbacks.element.copied ++
            store.output.toList.drop (first + source.length) := by
    intro hover
    have hcourse := (hfollows.of_isOver hends hover).1
    obtain ⟨_, _, _, _, _, hwithin⟩ := hfollows
    have hperm := Deed.requests_perm hwithin.log_lt hcourse
    rw [List.flatMap_cons, List.flatMap_nil, List.append_nil] at hperm
    rw [Crew.run_store]
    exact output_after_copy hthreads block hzero hclone htrivial hfits hperm.symm
  refine ⟨hfollows.not_poisoned hends, hfollows.exists_run hends, fun hover lane hlane => ?_, houtput,
    fun hover hequal => ?_⟩
  · obtain ⟨result, hstation, hresult⟩ := (hfollows.of_isOver hends hover).2.1 lane hlane
    obtain rfl := Stop.finished.inj hresult
    exact hstation
  · have hcopied : callbacks.element.copied = id := by
      funext value
      rw [Element.copied, hequal]
      rfl
    rw [houtput hover, hcopied, List.map_id]

/-- A copy that does not fit, whatever turns the lanes take. -/
theorem refuses_of_not_fits (element : Element α) (geometry : Geometry) (block address : Nat)
    (slots : Array σ) (callbacks : Callbacks σ α) (store : Store α) (turns : List Nat)
    (h : ¬ (first ≤ store.output.size ∧ source.length ≤ store.output.size - first)) :
    Refuses callbacks geometry.threads (refusal first store.output.size source) store
      ((crew element geometry block source store.output address first slots).run callbacks store turns) := by
  have hrefusing : (crew element geometry block source store.output address first slots).Refusing
      geometry.threads (refusal first store.output.size source) := by
    refine ⟨by simp [crew, Crew.start], fun lane station hs => ?_⟩
    have hmem := List.mem_of_getElem? hs
    simp only [crew, Crew.start, List.map_map, List.mem_map] at hmem
    obtain ⟨other, _, rfl⟩ := hmem
    exact .inl (congrArg Station.running (copy_eq_refusal element _ source h))
  obtain ⟨hpanics, hstore⟩ := hrefusing.run callbacks store turns
  refine ⟨hstore, hpanics, hpanics.exists_run callbacks _, fun hover lane hlane => ?_⟩
  obtain ⟨station, hs⟩ : ∃ station, ((crew element geometry block source store.output address first
      slots).run callbacks store turns).1.stations[lane]? = some station :=
    ⟨_, List.getElem?_eq_getElem (hpanics.length.symm ▸ hlane)⟩
  have hstation := List.all_eq_true.mp hover station (List.mem_of_getElem? hs)
  rcases hpanics.stands lane station hs with rfl | rfl
  · cases hstation
  · exact hs

/-- **A copy by a block is one function whatever way it takes**: for every element type whose clones do not
panic, and are equal to their originals if the type is copied through its bytes, for every source,
destination, place, number of lanes and generation, for all addresses, and whatever turns the lanes take.  If
it fits, no lane panics, and what it leaves does not depend on the way; if it does not, every lane panics and
nothing is written. -/
theorem copies_run (callbacks : Callbacks σ α) (geometry : Geometry) (hthreads : 0 < geometry.threads)
    (hzero : callbacks.element.size = 0 → ∀ a b : α, a = b)
    (hclone : ∀ value, ∃ copy, callbacks.element.clone value = .ok copy)
    (htrivial : callbacks.element.isTrivial = true → ∀ value, callbacks.element.clone value = .ok value)
    (block : Nat) (source : Placed α) (address first : Nat) (slots : Array σ) (store : Store α)
    (hlength : store.output.size < Word.limit)
    (hbytes : store.output.size * callbacks.element.size < Word.limit) (turns : List Nat) :
    (first ≤ store.output.size ∧ source.length ≤ store.output.size - first →
      Copies callbacks geometry.threads first source store
        ((crew callbacks.element geometry block source store.output address first slots).run callbacks
          store turns)) ∧
    (¬ (first ≤ store.output.size ∧ source.length ≤ store.output.size - first) →
      Refuses callbacks geometry.threads (refusal first store.output.size source) store
        ((crew callbacks.element geometry block source store.output address first slots).run callbacks
          store turns)) :=
  ⟨fun hfits => copies_of_fits hthreads hzero hclone htrivial hlength hbytes (by omega),
    refuses_of_not_fits callbacks.element geometry block address slots callbacks store turns⟩

/-- Elements of two bytes. -/
def pairCallbacks : Callbacks Unit (Vector UInt8 2) := ⟨fun _ _ => .ok (), fun _ _ => .ok (), .raw 2⟩

/-- Five of them, at a multiple of eight. -/
def pairSource : Placed (Vector UInt8 2) := ⟨#[#v[1, 2], #v[3, 4], #v[5, 6], #v[7, 8], #v[9, 10]], 16⟩

/-- A destination for ten of them. -/
def pairStore : Store (Vector UInt8 2) := ⟨Array.replicate 10 (Vector.replicate 2 0), .start 0⟩

/-- Three lanes copy the five elements to a place of the destination, which starts at address 8; the last lane
is always the first to move. -/
def pairRun (first : Nat) : Crew Unit (Vector UInt8 2) Nat × Store (Vector UInt8 2) :=
  (crew pairCallbacks.element ⟨1, 3, true⟩ 0 pairSource pairStore.output 8 first #[]).run pairCallbacks
    pairStore (List.replicate 6 [2, 0, 1]).flatten

/-- From the fourth place on both ends are at multiples of eight, so there is one word, which ends with the
fourth element, and a rest of two bytes.  From the sixth place on there is no room. -/
theorem copies_run_pairs :
    (pairRun 4).1.isOver = true ∧ (pairRun 4).2.output.toList =
        pairStore.output.toList.take 4 ++ pairSource.values.toList ++ pairStore.output.toList.drop 9 ∧
      (pairRun 6).2 = pairStore ∧
      ∀ lane < 3, (pairRun 6).1.stations[lane]? = some (.unwound (.copyPastEnd 5)) := by
  have h := fun first => copies_run pairCallbacks ⟨1, 3, true⟩ (by decide) nofun (fun value => ⟨value, rfl⟩)
    (fun _ _ => rfl) 0 pairSource 8 first #[] pairStore (by decide) (by decide)
    (List.replicate 6 [2, 0, 1]).flatten
  have hcopies : Copies pairCallbacks 3 4 pairSource pairStore (pairRun 4) := (h 4).1 (by decide)
  have hrefuses : Refuses pairCallbacks 3 (.copyPastEnd 5) pairStore (pairRun 6) := (h 6).2 (by decide)
  have hover : (pairRun 4).1.isOver = true := by decide +kernel
  have hover' : (pairRun 6).1.isOver = true := by decide +kernel
  exact ⟨hover, hcopies.same hover fun _ => rfl, hrefuses.store, hrefuses.unwound hover'⟩

end BlockCopy

end BlockMachine
