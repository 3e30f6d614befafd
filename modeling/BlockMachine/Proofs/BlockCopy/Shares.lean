import BlockMachine.Proofs.BlockCopy.Interleaving

/-!
# The bytes that each lane of a copy writes

* `Request.extent?` — the bytes that a request writes, and `Request.piece?_ne_none_iff` that something is
  written at these and nowhere else.
* `BlockCopy.cells` — the cells of one width that a lane takes of some that lie one after the other;
  `BlockCopy.perm_bytes_cells` says that the lanes take each byte of them once.
* `BlockCopy.laneExtents` — what a lane writes on each of the ways to copy.
* `BlockCopy.shared_of_front` — lanes that have done a first part of this do not meet, and none does more
  than its share.
* `BlockCopy.lanes_share_copies` — that is what the lanes do in a copy of elements and in one of bytes,
  whatever turns they take.
-/

set_option autoImplicit false

namespace BlockMachine

open History

variable {σ α β : Type}

/-- Some bytes of a destination that lie one after the other. -/
structure Extent where
  first : Nat
  count : Nat
  deriving DecidableEq, Repr

/-- The bytes of an extent. -/
def Extent.bytes (extent : Extent) : List Nat := List.range' extent.first extent.count

/-- The bytes that a request writes, of a destination with elements of some size. -/
def Request.extent? (size : Nat) : Request σ α → Option Extent
  | .write index _ => some ⟨index * size, size⟩
  | .writeBytes position bytes => some ⟨position, bytes.length⟩
  | _ => none

/-- **Something is written at the bytes of a request and nowhere else.** -/
theorem Request.piece?_ne_none_iff {element : Element α} (htrivial : element.isTrivial = true)
    (request : Request σ α) {slot place : Nat} (hplace : place < element.size) :
    request.piece? element slot place ≠ none ↔
      ∃ extent, request.extent? element.size = some extent ∧
        slot * element.size + place ∈ extent.bytes := by
  cases request with
  | write index value =>
    have hbyte : index * element.size ≤ slot * element.size + place ∧
        slot * element.size + place < index * element.size + element.size ↔ index = slot := by
      constructor
      · rintro ⟨hle, hlt⟩
        have hdiv := ((Element.div_eq_and_mod_eq_iff hplace).mpr
          (rfl : slot * element.size + place = slot * element.size + place)).1
        rw [← Nat.succ_mul] at hlt
        have hlow := (Nat.le_div_iff_mul_le (Nat.zero_lt_of_lt hplace)).mpr hle
        have hhigh := (Nat.div_lt_iff_lt_mul (Nat.zero_lt_of_lt hplace)).mpr hlt
        omega
      · rintro rfl
        omega
    simp [piece?, extent?, Extent.bytes, List.mem_range'_1, hbyte]
  | writeBytes position bytes =>
    simp only [piece?, extent?, Extent.bytes, htrivial, true_and, Option.some.injEq, exists_eq_left',
      List.mem_range'_1]
    by_cases hle : position ≤ slot * element.size + place
    · simp [hle]
      omega
    · simp [hle]
  | _ => simp [piece?, extent?]

/-- The bytes that a lane of a block writes in some turns, in its order. -/
def Crew.extents (callbacks : Callbacks σ α) (crew : Crew σ α β) (store : Store α) (turns : List Nat)
    (lane : Nat) : List Extent :=
  (own lane (crew.log callbacks store turns)).filterMap fun deed =>
    deed.request?.bind (Request.extent? callbacks.element.size)

namespace BlockCopy

/-! ## Cells that lie one after the other -/

/-- The cells of one width that a lane takes. -/
def cells (context : LaneContext) (position width count : Nat) : List Extent :=
  (context.share count).map fun cell => ⟨position + cell * width, width⟩

/-- Cells that lie one after the other are one string of bytes. -/
theorem flatMap_range' (position width count : Nat) :
    ((List.range count).flatMap fun cell => List.range' (position + cell * width) width) =
      List.range' position (count * width) := by
  induction count with
  | zero => rw [Nat.zero_mul]; rfl
  | succ count ih =>
    rw [List.range_succ, List.flatMap_append, ih, List.flatMap_singleton, Nat.succ_mul,
      List.range'_append_1]

/-- **The lanes take each byte of the cells once.** -/
theorem perm_bytes_cells {geometry : Geometry} (hthreads : 0 < geometry.threads)
    (block position width count : Nat) :
    ((List.range geometry.threads).flatMap fun lane =>
      (cells (geometry.context block lane) position width count).flatMap Extent.bytes).Perm
      (List.range' position (count * width)) := by
  have hshare := Geometry.perm_flatMap_share hthreads block count fun cell =>
    List.range' (position + cell * width) width
  rw [flatMap_range'] at hshare
  simp only [cells, List.flatMap_map, Extent.bytes]
  exact hshare

/-- A part of a lane's share of some items, each of which is one extent. -/
structure Fair (threads lane width count : Nat) (extents : List Extent) : Prop where
  width_eq : ∀ extent ∈ extents, extent.count = width
  /-- No more than the items by the lanes, rounded up. -/
  length_le : extents.length ≤ (count + threads - 1) / threads
  /-- Nothing for a lane at or past the end of the items. -/
  beyond : count ≤ lane → extents = []

theorem fair_cells {context : LaneContext} (hlane : context.lane < context.blockSize)
    (position width count : Nat) :
    Fair context.blockSize context.lane width count (cells context position width count) where
  width_eq := by
    intro extent h
    obtain ⟨_, _, rfl⟩ := List.mem_map.mp h
    rfl
  length_le := by
    rw [cells, List.length_map, LaneContext.share, List.length_map, List.length_range]
    exact Nat.div_le_div_right (by omega)
  beyond h := by
    refine List.map_eq_nil_iff.mpr (List.eq_nil_iff_forall_not_mem.mpr fun cell hcell => ?_)
    obtain ⟨hlt, hmod⟩ := (LaneContext.mem_share hlane).mp hcell
    have hle := Nat.mod_le cell context.blockSize
    omega

theorem Fair.of_front {threads lane width count : Nat} {extents others : List Extent}
    (h : Fair threads lane width count others) (hfront : extents <+: others) :
    Fair threads lane width count extents where
  width_eq extent he := h.width_eq extent (hfront.subset he)
  length_le := hfront.length_le.trans h.length_le
  beyond hle := List.prefix_nil.mp (h.beyond hle ▸ hfront)

/-! ## The ways to copy -/

/-- What a lane writes to copy elements of some size to the bytes from a position on. -/
def laneExtents (path : CopyPath) (context : LaneContext) (position size count : Nat) : List Extent :=
  match path with
  | .elementwise => cells context position size count
  | .bytewise => cells context position 1 (count * size)
  | .wide =>
    cells context position wordBytes (count * size / wordBytes) ++
      cells context (position + count * size / wordBytes * wordBytes) 1 (count * size % wordBytes)

/-- A lane does a part of its share: elements, bytes, or words and after them the bytes of the rest. -/
def FairOn (path : CopyPath) (threads lane size count : Nat) (extents : List Extent) : Prop :=
  match path with
  | .elementwise => Fair threads lane size count extents
  | .bytewise => Fair threads lane 1 (count * size) extents
  | .wide => ∃ words rest, extents = words ++ rest ∧
      Fair threads lane wordBytes (count * size / wordBytes) words ∧
      Fair threads lane 1 (count * size % wordBytes) rest

/-- How lanes share the bytes of a copy, as long as it is under way and when it is over. -/
structure Shared (path : CopyPath) (threads first size count : Nat) (ended : Bool)
    (extents : Nat → List Extent) : Prop where
  /-- No lane writes a byte twice. -/
  nodup : ∀ lane < threads, ((extents lane).flatMap Extent.bytes).Nodup
  /-- No two lanes write the same byte. -/
  disjoint : ∀ lane < threads, ∀ other < threads, lane ≠ other →
    ((extents lane).flatMap Extent.bytes).Disjoint ((extents other).flatMap Extent.bytes)
  /-- No lane writes outside of the range of the copy. -/
  inside : ∀ lane < threads, ∀ byte ∈ (extents lane).flatMap Extent.bytes,
    first * size ≤ byte ∧ byte < first * size + count * size
  /-- At the end all of the range is written. -/
  complete : ended = true → ∀ byte, first * size ≤ byte → byte < first * size + count * size →
    ∃ lane < threads, byte ∈ (extents lane).flatMap Extent.bytes
  /-- No lane does more than its share. -/
  fair : ∀ lane < threads, FairOn path threads lane size count (extents lane)

/-- On each way the lanes take each byte of the range once. -/
theorem perm_bytes_laneExtents {geometry : Geometry} (hthreads : 0 < geometry.threads) (path : CopyPath)
    (block position size count : Nat) :
    ((List.range geometry.threads).flatMap fun lane =>
      (laneExtents path (geometry.context block lane) position size count).flatMap Extent.bytes).Perm
      (List.range' position (count * size)) := by
  cases path with
  | elementwise => exact perm_bytes_cells hthreads block position size count
  | bytewise =>
    have hbytes := perm_bytes_cells hthreads block position 1 (count * size)
    rwa [Nat.mul_one] at hbytes
  | wide =>
    have hwords := perm_bytes_cells hthreads block position wordBytes (count * size / wordBytes)
    have hrest := perm_bytes_cells hthreads block (position + count * size / wordBytes * wordBytes) 1
      (count * size % wordBytes)
    rw [Nat.mul_one] at hrest
    simp only [laneExtents, List.flatMap_append]
    refine (perm_flatMap_append _ _ _).trans ((hwords.append hrest).trans ?_)
    rw [List.range'_append_1, Nat.mul_comm (count * size / wordBytes), Nat.div_add_mod]

theorem fairOn_laneExtents (path : CopyPath) {context : LaneContext}
    (hlane : context.lane < context.blockSize) (position size count : Nat) {extents : List Extent}
    (hfront : extents <+: laneExtents path context position size count) :
    FairOn path context.blockSize context.lane size count extents := by
  cases path with
  | elementwise => exact (fair_cells hlane position size count).of_front hfront
  | bytewise => exact (fair_cells hlane position 1 (count * size)).of_front hfront
  | wide =>
    -- the words come first
    rw [laneExtents, List.prefix_iff_eq_take, List.take_append] at hfront
    exact ⟨_, _, hfront, (fair_cells hlane ..).of_front (List.take_prefix ..),
      (fair_cells hlane ..).of_front (List.take_prefix ..)⟩

/-- **Lanes that have done a first part of what they have to do do not meet**, and when they have done all
of it the range is written. -/
theorem shared_of_front {geometry : Geometry} (hthreads : 0 < geometry.threads) (path : CopyPath)
    (block first size count : Nat) {ended : Bool} {extents : Nat → List Extent}
    (hfront : ∀ lane < geometry.threads,
      extents lane <+: laneExtents path (geometry.context block lane) (first * size) size count)
    (hended : ended = true → ∀ lane < geometry.threads,
      extents lane = laneExtents path (geometry.context block lane) (first * size) size count) :
    Shared path geometry.threads first size count ended extents := by
  have hperm := perm_bytes_laneExtents hthreads path block (first * size) size count
  have hnodup := hperm.nodup_iff.mpr List.nodup_range'
  have hsublist : ∀ lane < geometry.threads, ((extents lane).flatMap Extent.bytes).Sublist
      ((laneExtents path (geometry.context block lane) (first * size) size count).flatMap
        Extent.bytes) :=
    fun lane hlane => (hfront lane hlane).sublist.flatMap _
  obtain ⟨hown, hpairwise⟩ := List.nodup_flatMap.mp hnodup
  have hapart : ∀ lane < geometry.threads, ∀ other < geometry.threads, lane ≠ other →
      ((laneExtents path (geometry.context block lane) (first * size) size count).flatMap
        Extent.bytes).Disjoint
      ((laneExtents path (geometry.context block other) (first * size) size count).flatMap
        Extent.bytes) := by
    intro lane hlane other hother hne
    have : Std.Symm (Function.onFun List.Disjoint fun lane =>
        (laneExtents path (geometry.context block lane) (first * size) size count).flatMap
          Extent.bytes) := ⟨fun _ _ h => h.symm⟩
    exact hpairwise.forall (List.mem_range.mpr hlane) (List.mem_range.mpr hother) hne
  refine ⟨fun lane hlane => (hsublist lane hlane).nodup (hown lane (List.mem_range.mpr hlane)),
    fun lane hlane other hother hne byte hbyte hbyte' => ?_, fun lane hlane byte hbyte => ?_,
    fun hdone byte hlow hhigh => ?_, fun lane hlane => ?_⟩
  · exact hapart lane hlane other hother hne ((hsublist lane hlane).subset hbyte)
      ((hsublist other hother).subset hbyte')
  · have hmem := hperm.mem_iff.mp (List.mem_flatMap.mpr
      ⟨lane, List.mem_range.mpr hlane, (hsublist lane hlane).subset hbyte⟩)
    exact List.mem_range'_1.mp hmem
  · obtain ⟨lane, hlane, hbyte⟩ := List.mem_flatMap.mp
      (hperm.mem_iff.mpr (List.mem_range'_1.mpr ⟨hlow, hhigh⟩))
    have hlt := List.mem_range.mp hlane
    exact ⟨lane, hlt, hended hdone lane hlt ▸ hbyte⟩
  · have hcontext : (geometry.context block lane).lane < (geometry.context block lane).blockSize := hlane
    exact fairOn_laneExtents path hcontext (first * size) size count (hfront lane hlane)

/-! ## What the requests of a lane write -/

theorem extents_cellRequests (context : LaneContext) (bytes : Bytes)
    (position start width count size : Nat) :
    ((context.share count).flatMap fun cell =>
        [(cellRequest bytes position start width cell : Request σ α)]).filterMap
      (Request.extent? size) = cells context position width count := by
  rw [List.filterMap_flatMap, cells, List.map_eq_flatMap]
  apply List.flatMap_congr
  intro cell _
  simp [cellRequest, Request.extent?, length_chunk]

/-- What a lane writes to copy a string of bytes. -/
theorem extents_byteRequests (context : LaneContext) (position : Nat) (bytes : Bytes)
    (target elementSize size count : Nat) (hlength : bytes.length = count * size) :
    (byteRequests context position (onWord bytes.address && onWord target) bytes :
        List (Request σ α)).filterMap (Request.extent? elementSize) =
      laneExtents (choosePath true true bytes.address target) context position size count := by
  unfold choosePath byteRequests
  simp only [Bool.not_true, Bool.or_self, Bool.false_eq_true, if_false, hlength]
  by_cases haligned : (onWord bytes.address && onWord target) = true
  · have hrest : count * size - count * size / wordBytes * wordBytes = count * size % wordBytes := by
      have := Nat.div_add_mod (count * size) wordBytes
      rw [Nat.mul_comm] at this
      omega
    rw [if_pos haligned, if_pos haligned, List.filterMap_append, extents_cellRequests,
      extents_cellRequests, hrest]
    rfl
  · rw [if_neg haligned, if_neg haligned, extents_cellRequests]
    rfl

variable {element : Element α}

/-- What a lane writes to copy elements one by one. -/
theorem extents_elementRequests (hclone : ∀ value, ∃ copy, element.clone value = .ok copy)
    (context : LaneContext) (hlane : context.lane < context.blockSize) (source : Placed α)
    {target : WriteView} {first : Nat} (hposition : target.position = first * element.size)
    (hcell : target.cell = element.size) :
    ((context.share source.length).flatMap
        (elementRequests element source target : Nat → List (Request σ α))).filterMap
      (Request.extent? element.size) =
      cells context (first * element.size) element.size source.length := by
  rw [List.filterMap_flatMap, cells, List.map_eq_flatMap]
  apply List.flatMap_congr
  intro index hindex
  have hlt : index < source.values.size := ((LaneContext.mem_share hlane).mp hindex).1
  obtain ⟨copy, hcopy⟩ := hclone source.values[index]
  have hplace : (target.position / target.cell + index) * element.size =
      first * element.size + index * element.size := by
    rw [hposition, hcell, Nat.add_mul, Nat.div_mul_cancel (Nat.dvd_mul_left ..)]
  have hvalue : source.values[index]? = some source.values[index] := Array.getElem?_eq_getElem hlt
  rw [elementRequests, hvalue]
  simp only [hcopy]
  exact congrArg (fun first => [Extent.mk first element.size]) hplace

/-- **What a lane writes in a copy**, by the way it takes. -/
theorem extents_copyRequests (hclone : ∀ value, ∃ copy, element.clone value = .ok copy)
    (context : LaneContext) (hlane : context.lane < context.blockSize) (source : Placed α)
    {target : WriteView} {first : Nat} (hposition : target.position = first * element.size)
    (hcell : target.cell = element.size) :
    (copyRequests element context source target : List (Request σ α)).filterMap
        (Request.extent? element.size) =
      laneExtents (choosePath context.wideCopy element.isTrivial source.address target.address)
        context (first * element.size) element.size source.length := by
  have hnote : (if context.lane = 0 then [(.note (.bulkCopy ⟨context.block, source.length,
      choosePath context.wideCopy element.isTrivial source.address target.address, source.address,
      target.address⟩) : Request σ α)] else []).filterMap (Request.extent? element.size) = [] := by
    split <;> rfl
  unfold copyRequests
  rw [List.filterMap_append, hnote, List.nil_append]
  by_cases hpath : choosePath context.wideCopy element.isTrivial source.address target.address =
      .elementwise
  · rw [hpath]
    exact extents_elementRequests hclone context hlane source hposition hcell
  · have hbytes : choosePath context.wideCopy element.isTrivial source.address target.address =
        choosePath true true source.address target.address := by
      unfold choosePath at hpath ⊢
      by_cases hfast : (!element.isTrivial || !context.wideCopy) = true
      · exact absurd (if_pos hfast) hpath
      · rw [if_neg hfast]
        rfl
    rw [pathRequests_of_ne hpath, hbytes, ← hposition]
    exact extents_byteRequests context target.position (bytesOf element source) target.address
      element.size element.size source.length rfl

/-! ## Runs -/

variable {callbacks : Callbacks σ α} {geometry : Geometry} {store : Store α}

/-- The lanes of a block that makes one stage of requests share what these write. -/
theorem shared_of_runs (hthreads : 0 < geometry.threads) (block : Nat) {path : CopyPath}
    {first size count : Nat} {programs : Nat → Lane σ α β} {slots : Array σ}
    {stage : Stage σ α} {stops : Nat → Stop σ α β}
    (hruns : Block.Runs callbacks geometry.threads programs ⟨slots, store.journal.calls⟩ [stage] stops)
    (hends : Block.EndWell geometry.threads stops)
    (hstage : ∀ lane < geometry.threads, (stage lane).filterMap
      (Request.extent? callbacks.element.size) =
        laneExtents path (geometry.context block lane) (first * size) size count)
    (turns : List Nat) :
    let crew := Crew.start slots ((List.range geometry.threads).map programs)
    Shared path geometry.threads first size count (crew.run callbacks store turns).1.isOver
      (crew.extents callbacks store turns) ∧
    ∃ more, ((crew.run callbacks store turns).1.run callbacks (crew.run callbacks store turns).2
      more).1.isOver = true := by
  intro crew
  have hstart : Crew.Follows callbacks geometry.threads ⟨slots, store.journal.calls⟩ [stage] stops crew
      store.journal.calls [] := Crew.Follows.start hruns fun _ _ => rfl
  have hfollows := hstart.run turns
  rw [List.nil_append] at hfollows
  have hcourse : ∀ lane < geometry.threads,
      (Stage.course [stage] lane).filterMap (fun deed =>
        deed.request?.bind (Request.extent? callbacks.element.size)) =
        laneExtents path (geometry.context block lane) (first * size) size count := by
    intro lane hlane
    rw [← List.filterMap_filterMap, Stage.filterMap_course, List.flatMap_singleton, hstage lane hlane]
  refine ⟨shared_of_front hthreads path block first size count (fun lane hlane => ?_)
    fun hended lane hlane => ?_, hfollows.exists_run hends⟩
  · rw [← hcourse lane hlane]
    exact (hfollows.own_isPrefix hends hlane).filterMap _
  · rw [Crew.extents, (hfollows.of_isOver hends hended).1 lane hlane, hcourse lane hlane]

/-- A block whose lanes are about to copy a string of bytes to the start of a view of bytes. -/
def bytesCrew (geometry : Geometry) (block : Nat) (source : Bytes) (target : WriteView)
    (slots : Array σ) : Crew σ α Unit :=
  Crew.start slots ((List.range geometry.threads).map fun lane =>
    copyBytes (geometry.context block lane) target source)

/-- **The lanes of a copy share its bytes**: for every number of lanes, length, element size and pair of
addresses, and whatever turns the lanes take, no two lanes write the same byte and none writes one twice;
at the end all of the destination range is written; and no lane does more than its share.  The first part is
about copies of elements, the second about copies of bytes. -/
theorem lanes_share_copies (callbacks : Callbacks σ α) (geometry : Geometry)
    (hthreads : 0 < geometry.threads) (block : Nat) (slots : Array σ) (store : Store α)
    (turns : List Nat) :
    (∀ (source : Placed α) (address first : Nat),
      (∀ value, ∃ copy, callbacks.element.clone value = .ok copy) →
      store.output.size < Word.limit →
      store.output.size * callbacks.element.size < Word.limit →
      first + source.length ≤ store.output.size →
      let lanes := crew callbacks.element geometry block source store.output address first slots
      Shared (choosePath geometry.wideCopy callbacks.element.isTrivial source.address
          (address + first * callbacks.element.size))
        geometry.threads first callbacks.element.size source.length
        (lanes.run callbacks store turns).1.isOver (lanes.extents callbacks store turns) ∧
      ∃ more, ((lanes.run callbacks store turns).1.run callbacks (lanes.run callbacks store turns).2
        more).1.isOver = true) ∧
    ∀ (source : Bytes) (target : WriteView), target.cell = 1 → target.length < Word.limit →
      source.length ≤ target.length →
      let lanes : Crew σ α Unit := bytesCrew geometry block source target slots
      Shared (choosePath true true source.address target.address) geometry.threads target.position 1
        source.length (lanes.run callbacks store turns).1.isOver
        (lanes.extents callbacks store turns) ∧
      ∃ more, ((lanes.run callbacks store turns).1.run callbacks (lanes.run callbacks store turns).2
        more).1.isOver = true := by
  constructor
  · intro source address first hclone hlength hbytes hfits
    have hruns : Block.Runs callbacks geometry.threads
        (fun lane => (copy callbacks.element (geometry.context block lane) source
          (destination callbacks.element store.output address) first : Lane σ α Nat))
        ⟨slots, store.journal.calls⟩
        [fun lane => copyRequests callbacks.element (geometry.context block lane) source
          ((destination callbacks.element store.output address).dropped first)]
        (fun _ => .finished (first + source.length)) :=
      runs_copy hthreads block address slots hclone hlength hbytes hfits
    exact shared_of_runs hthreads block hruns (fun _ _ => ⟨_, rfl⟩) (fun lane hlane =>
      extents_copyRequests hclone _ hlane source (Nat.zero_add _) rfl) turns
  · intro source target hcell hlimit hfits
    have hruns : Block.Runs callbacks geometry.threads
        (fun lane => (copyBytes (geometry.context block lane) target source : Lane σ α Unit))
        ⟨slots, store.journal.calls⟩
        [fun lane => byteRequests (geometry.context block lane) target.position
          (onWord source.address && onWord target.address) source]
        (fun _ => .finished ()) := by
      refine .stop (fun lane hlane => ?_) ?_ ⟨0, hthreads, rfl⟩
      · have hasks : Lane.Asks callbacks
            (copyBytes (geometry.context block lane) target source : Lane σ α Unit)
            ⟨slots, store.journal.calls⟩ _ (.done ()) :=
          asks_copyBytes callbacks hlane hcell hfits hlimit _
        rw [hasks.segment]
        simp
      · exact apart_of_quiet callbacks geometry.threads fun lane request => mem_byteRequests
    refine shared_of_runs hthreads block hruns (fun _ _ => ⟨_, rfl⟩) (fun lane hlane => ?_) turns
    rw [Nat.mul_one]
    exact extents_byteRequests _ _ source target.address callbacks.element.size 1 source.length
      (Nat.mul_one _).symm

/-- Three lanes copy five elements of two bytes to a place from which both ends are at multiples of eight:
one word, and a rest of two bytes.  And they copy a string of seven bytes to an odd address. -/
theorem lanes_share_copies_pairs :
    Shared .wide 3 4 2 5 true ((crew pairCallbacks.element ⟨1, 3, true⟩ 0 pairSource pairStore.output 8 4
      #[]).extents pairCallbacks pairStore (List.replicate 6 [2, 0, 1]).flatten) ∧
    Shared .bytewise 3 3 1 7 true ((bytesCrew ⟨1, 3, true⟩ 0 ⟨fun _ => 1, 7, 16⟩ ⟨11, 3, 1, 17⟩
      #[] : Crew Unit (Vector UInt8 2) Unit).extents pairCallbacks pairStore
      (List.replicate 6 [2, 0, 1]).flatten) := by
  obtain ⟨helements, hbytes⟩ := lanes_share_copies pairCallbacks ⟨1, 3, true⟩ (by decide) 0 #[] pairStore
    (List.replicate 6 [2, 0, 1]).flatten
  have hpairs := (helements pairSource 8 4 (fun value => ⟨value, rfl⟩) (by decide) (by decide)
    (by decide)).1
  have hseven := (hbytes ⟨fun _ => 1, 7, 16⟩ ⟨11, 3, 1, 17⟩ rfl (by decide) (by decide)).1
  have hended : ((crew pairCallbacks.element ⟨1, 3, true⟩ 0 pairSource pairStore.output 8 4 #[]).run
      pairCallbacks pairStore (List.replicate 6 [2, 0, 1]).flatten).1.isOver = true := by
    decide +kernel
  have hended' : ((bytesCrew ⟨1, 3, true⟩ 0 ⟨fun _ => 1, 7, 16⟩ ⟨11, 3, 1, 17⟩ #[] :
      Crew Unit (Vector UInt8 2) Unit).run pairCallbacks pairStore
      (List.replicate 6 [2, 0, 1]).flatten).1.isOver = true := by
    decide +kernel
  rw [hended] at hpairs
  rw [hended'] at hseven
  exact ⟨hpairs, hseven⟩

end BlockCopy

end BlockMachine
