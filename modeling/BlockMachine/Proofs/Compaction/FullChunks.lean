import BlockMachine.Proofs.Compaction.Deliveries

/-!
# Chunks that are moved as a whole

A full chunk all of whose elements are selected is dense: all lanes of its block move it together.

* `BlockCopy.requestsOn` — what a lane asks on each of the ways to copy, and the record of the first lane.
* `BlockCopy.choosePath_eq_wide`, `BlockCopy.choosePath_eq_bytewise`, `BlockCopy.choosePath_eq_elementwise` —
  which way is taken.
* `Compaction.chunkRequests`, `Compaction.chunkCopy` — what the lanes ask to move one, and how it is recorded.
* `Compaction.writes_chunkRequests` — this writes the elements of the chunk, and nothing else.
* `Compaction.TakesChunks.exists_perm` — the lanes of a block move its dense chunks so, and everything else
  element by element.
-/

set_option autoImplicit false

namespace BlockMachine

open Request BlockScan

variable {σ α : Type}

/-- Wide copies are reliable from level 2.0 on. -/
theorem Capability.supportsWideCopy_iff (level : Capability) :
    level.supportsWideCopy = true ↔ 2 ≤ level.major.toNat := by
  obtain ⟨major, minor⟩ := level
  have htwo : (2 : UInt32).toNat = 2 := rfl
  have hminor : ¬ minor < 0 := by
    rw [UInt32.lt_iff_toNat_lt]
    exact Nat.not_lt_zero _
  show ((compareOfLessAndEq major 2).then (compareOfLessAndEq minor 0)).isGE = true ↔ 2 ≤ major.toNat
  rw [← htwo, ← UInt32.le_iff_toNat_le]
  unfold compareOfLessAndEq
  rw [if_neg hminor]
  by_cases hlt : major < 2
  · rw [if_pos hlt]
    exact ⟨nofun, fun hle => absurd hlt (UInt32.not_lt.mpr hle)⟩
  · rw [if_neg hlt]
    refine ⟨fun _ => UInt32.not_lt.mp hlt, fun _ => ?_⟩
    split <;> split <;> rfl

/-! ## Ways to copy -/

namespace BlockCopy

section Path

variable {wideCopy trivial : Bool} {source target : Nat}

theorem choosePath_eq_wide : choosePath wideCopy trivial source target = .wide ↔
    trivial = true ∧ wideCopy = true ∧ source % 8 = 0 ∧ target % 8 = 0 := by
  cases trivial <;> cases wideCopy <;> simp [choosePath, onWord, wordBytes]

theorem choosePath_eq_bytewise : choosePath wideCopy trivial source target = .bytewise ↔
    trivial = true ∧ wideCopy = true ∧ ¬ (source % 8 = 0 ∧ target % 8 = 0) := by
  cases trivial <;> cases wideCopy <;> simp [choosePath, onWord, wordBytes]

theorem choosePath_eq_elementwise : choosePath wideCopy trivial source target = .elementwise ↔
    ¬ (trivial = true ∧ wideCopy = true) := by
  cases trivial <;> cases wideCopy <;> simp only [choosePath] <;> simp
  split <;> simp

end Path

variable {element : Element α} {context : LaneContext} {source : Placed α} {target : WriteView}

/-- What a lane asks in a copy that goes a certain way.  The first lane records the copy. -/
def requestsOn (element : Element α) (context : LaneContext) (source : Placed α) (target : WriteView)
    (path : CopyPath) : List (Request σ α) :=
  (if context.lane = 0 then
    [.note (.bulkCopy ⟨context.block, source.length, path, source.address, target.address⟩)] else []) ++
  match path with
  | .wide => byteRequests context target.position true (bytesOf element source)
  | .bytewise => byteRequests context target.position false (bytesOf element source)
  | .elementwise => (context.share source.length).flatMap (elementRequests element source target)

/-- **A lane asks what belongs to the way that is taken.** -/
theorem copyRequests_eq (element : Element α) (context : LaneContext) (source : Placed α) (target : WriteView) :
    (copyRequests element context source target : List (Request σ α)) = requestsOn element context source target
      (choosePath context.wideCopy element.isTrivial source.address target.address) := by
  unfold copyRequests requestsOn
  simp only
  congr 1
  cases hpath : choosePath context.wideCopy element.isTrivial source.address target.address with
  | elementwise => rfl
  | wide =>
    obtain ⟨_, _, hsource, htarget⟩ := choosePath_eq_wide.mp hpath
    simp only [pathRequests, onWord, wordBytes, hsource, htarget]
    rfl
  | bytewise =>
    obtain ⟨_, _, hnot⟩ := choosePath_eq_bytewise.mp hpath
    have haligned : (onWord source.address && onWord target.address) = false := by
      simpa [onWord, wordBytes] using hnot
    rw [pathRequests, haligned]

/-- What lies behind the record logs nothing. -/
theorem filterMap_noted?_requestsOn (path : CopyPath) :
    (requestsOn element context source target path : List (Request σ α)).filterMap noted? =
      if context.lane = 0 then
        [.bulkCopy ⟨context.block, source.length, path, source.address, target.address⟩] else [] := by
  have hcells : ∀ (items : List Nat) (bytes : Bytes) (position start width : Nat),
      (items.flatMap fun cell => [(cellRequest bytes position start width cell : Request σ α)]).filterMap
        noted? = [] := by
    intro items bytes position start width
    refine List.filterMap_eq_nil_iff.mpr fun request hr => ?_
    obtain ⟨cell, _, hr⟩ := List.mem_flatMap.mp hr
    rw [List.mem_singleton.mp hr]
    rfl
  have helement : ∀ index, (elementRequests element source target index : List (Request σ α)).filterMap
      noted? = [] := by
    intro index
    unfold elementRequests
    split
    · rfl
    · split <;> rfl
  have hfirst : (if context.lane = 0 then [(.note (.bulkCopy ⟨context.block, source.length, path,
      source.address, target.address⟩) : Request σ α)] else []).filterMap noted? = if context.lane = 0 then
        [.bulkCopy ⟨context.block, source.length, path, source.address, target.address⟩] else [] := by
    split <;> rfl
  unfold requestsOn
  rw [List.filterMap_append, hfirst]
  refine (congrArg _ ?_).trans (List.append_nil _)
  cases path with
  | wide => simp only [byteRequests, if_true, List.filterMap_append, hcells, List.append_nil]
  | bytewise => simp only [byteRequests, Bool.false_eq_true, if_false, hcells]
  | elementwise =>
    rw [List.filterMap_flatMap, List.flatMap_eq_nil_iff]
    exact fun index _ => helement index

end BlockCopy

namespace Compaction

variable {task : Task α} {items : Nat → Nat} {geometry : Geometry} {cut : Decomposition} {width block : Nat}

/-! ## Moving a dense chunk -/

/-- What the lanes of a block ask together to move a dense chunk, behind all elements that are selected before
it. -/
def chunkRequests (task : Task α) (items : Nat → Nat) (geometry : Geometry) (block base : Nat) :
    List (Request Nat α) :=
  let source := chunkSource task geometry.threads base
  let target := task.output.dropped (total items base)
  (List.range geometry.threads).flatMap fun lane => BlockCopy.requestsOn task.element
    (geometry.context block lane) source target
    (BlockCopy.choosePath geometry.wideCopy task.element.isTrivial source.address target.address)

/-- The block copy of a dense chunk. -/
def chunkCopy (task : Task α) (items : Nat → Nat) (geometry : Geometry) (block base : Nat) : BulkCopy :=
  let source := task.input.address + base * task.element.size
  let target := task.output.address + total items base * task.element.size
  ⟨block, geometry.threads,
    BlockCopy.choosePath geometry.wideCopy task.element.isTrivial source target, source, target⟩

section Chunk

variable {base : Nat} (hthreads : 0 < geometry.threads)
  (houtput : task.output = .whole task.output.address task.element.size task.output.length)

theorem length_chunkSource (hinside : base + width ≤ task.input.length) :
    (chunkSource task width base).length = width := by
  have hsize : task.input.length = task.input.values.size := rfl
  simp only [Placed.length, chunkSource, Array.size_extract]
  omega

include houtput

/-- Where a dense chunk is moved to. -/
theorem address_dropped (slot : Nat) :
    (task.output.dropped slot).address = task.output.address + slot * task.element.size := by
  have hcell : task.output.cell = task.element.size := by
    rw [houtput]
    rfl
  rw [WriteView.dropped, hcell]

include hthreads

/-- A dense chunk is recorded once. -/
theorem filterMap_noted?_chunkRequests (hinside : base + geometry.threads ≤ task.input.length) :
    (chunkRequests task items geometry block base).filterMap noted? =
      [.bulkCopy (chunkCopy task items geometry block base)] := by
  obtain ⟨more, hmore⟩ := Nat.exists_eq_succ_of_ne_zero (Nat.ne_of_gt hthreads)
  have hlater : ∀ lane, ¬ (geometry.context block (lane + 1)).lane = 0 := fun lane => Nat.succ_ne_zero lane
  have hfirst : (geometry.context block 0).lane = 0 := rfl
  unfold chunkRequests chunkCopy
  simp only [List.filterMap_flatMap, BlockCopy.filterMap_noted?_requestsOn, length_chunkSource hinside,
    address_dropped houtput]
  rw [hmore, List.range_succ_eq_map, List.flatMap_cons, List.flatMap_map, if_pos hfirst,
    List.flatMap_eq_nil_iff.mpr fun lane _ => if_neg (hlater lane), List.append_nil]
  rfl

/-- **The elements of a dense chunk are written**, each to its own slot, if those that are cloned return. -/
theorem writes_chunkRequests
    (hclone : (chunkCopy task items geometry block base).path = .elementwise →
      ∀ value ∈ (chunkSource task geometry.threads base).values.toList, ∃ copy,
        task.element.clone value = .ok copy) :
    Writes task.element (total items base)
      (task.input.values.extract base (base + geometry.threads)).toList
      (chunkRequests task items geometry block base) := by
  have haddress := address_dropped houtput (total items base)
  have hwrites := @BlockCopy.writes_copy Nat α task.element geometry hthreads block
    (chunkSource task geometry.threads base) (total items base) task.output.address task.output.length
  rw [← houtput, haddress] at hwrites
  have hall := hwrites hclone
  simp only [BlockCopy.copyRequests_eq] at hall
  exact hall

/-- A dense chunk that goes element by element clones each of its elements. -/
theorem clone_mem_chunkRequests (hpath : (chunkCopy task items geometry block base).path = .elementwise)
    {value : α} (hvalue : value ∈ (chunkSource task geometry.threads base).values.toList) :
    .clone value ∈ chunkRequests task items geometry block base := by
  obtain ⟨index, hindex⟩ := List.mem_iff_getElem?.mp hvalue
  rw [Array.getElem?_toList] at hindex
  have hclone : .clone value ∈ (BlockCopy.elementRequests task.element (chunkSource task geometry.threads base)
      (task.output.dropped (total items base)) index : List (Request Nat α)) := by
    unfold BlockCopy.elementRequests
    rw [hindex]
    cases hcopy : task.element.clone value with
    | ok copy =>
      simp only [hcopy]
      exact List.mem_cons_self
    | error panic =>
      simp only [hcopy]
      exact List.mem_cons_self
  have hlength : index < (chunkSource task geometry.threads base).length :=
    (Array.getElem?_eq_some_iff.mp hindex).1
  have hall := (Geometry.perm_flatMap_share hthreads block _ _).mem_iff.mpr
    (List.mem_flatMap.mpr ⟨index, List.mem_range.mpr hlength, hclone⟩)
  obtain ⟨lane, hlane, hr⟩ := List.mem_flatMap.mp hall
  have hway : BlockCopy.choosePath geometry.wideCopy task.element.isTrivial
      (chunkSource task geometry.threads base).address (task.output.dropped (total items base)).address =
        .elementwise := by
    rw [address_dropped houtput]
    exact hpath
  refine List.mem_flatMap.mpr ⟨lane, hlane, ?_⟩
  rw [hway]
  exact List.mem_append_right _ hr

end Chunk

/-! ## The chunks of a block -/

theorem noted?_of_mem_scatterRequests {out base n lane : Nat} {request : Request Nat α}
    (h : request ∈ scatterRequests task items out base n lane) : request.noted? = none := by
  unfold scatterRequests placeRequests at h
  split at h
  · cases h
  · rcases List.mem_cons.mp h with rfl | h
    · rfl
    · split at h
      · cases h
      · split at h
        · rw [List.mem_singleton.mp h]
          rfl
        · rcases List.mem_cons.mp h with rfl | h
          · rfl
          · split at h
            · rw [List.mem_singleton.mp h]
              rfl
            · cases h

/-- A request that belongs to no block copy: it logs nothing, and writes no parts of values. -/
def Single (request : Request Nat α) : Prop := request.noted? = none ∧ request.Whole

/-- An element whose clone returns is copied as it is where no clone panics. -/
theorem elementRequests_patched {source : Placed α} {target : WriteView} {index : Nat}
    (hanswered : ∀ request ∈ (BlockCopy.elementRequests task.element.patched source target index :
      List (Request Nat α)), refusal task.element request = none) :
    (BlockCopy.elementRequests task.element.patched source target index : List (Request Nat α)) =
      BlockCopy.elementRequests task.element source target index := by
  unfold BlockCopy.elementRequests at hanswered ⊢
  cases hvalue : source.values[index]? with
  | none => rfl
  | some value =>
    rw [hvalue] at hanswered
    have hreturns := hanswered (.clone value) List.mem_cons_self
    cases hclone : task.element.clone value with
    | error panic =>
      rw [refusal, hclone] at hreturns
      cases hreturns
    | ok copy => simp only [Element.patched, hclone, Except.toOption, Option.getD_some]

/-- So is a whole chunk. -/
theorem copyRequests_patched {context : LaneContext} {source : Placed α} {target : WriteView}
    (hanswered : ∀ request ∈ (BlockCopy.copyRequests task.element.patched context source target :
      List (Request Nat α)), refusal task.element request = none) :
    (BlockCopy.copyRequests task.element.patched context source target : List (Request Nat α)) =
      BlockCopy.copyRequests task.element context source target := by
  have hbytes : BlockCopy.bytesOf task.element.patched source = BlockCopy.bytesOf task.element source := by
    unfold BlockCopy.bytesOf
    rw [Element.byteAt_patched]
    rfl
  have htrivial : task.element.patched.isTrivial = task.element.isTrivial := rfl
  unfold BlockCopy.copyRequests at hanswered ⊢
  rw [htrivial] at hanswered ⊢
  simp only at hanswered ⊢
  congr 1
  generalize BlockCopy.choosePath context.wideCopy task.element.isTrivial source.address target.address = path
    at hanswered ⊢
  by_cases hpath : path = .elementwise
  · subst hpath
    refine List.flatMap_congr fun index hindex => elementRequests_patched fun request hr => ?_
    exact hanswered request (List.mem_append_right _ (List.mem_flatMap.mpr ⟨index, hindex, hr⟩))
  · rw [BlockCopy.pathRequests_of_ne hpath, BlockCopy.pathRequests_of_ne hpath, hbytes]

/-- The stages of a block all of whose requests are answered. -/
theorem TakesChunks.answered {stages : List (Stage Nat α)}
    (h : TakesChunks task.patched items geometry block (cut.start block) (cut.start (block + 1)) stages)
    (hanswered : ∀ stage ∈ stages, stage.Answered (refusal task.element) geometry.threads) :
    Stage.Works (Idle geometry.threads) (fun chunk stage =>
      MovesChunk task.patched items geometry block (total items chunk.1) chunk stage ∧
        stage.Answered (refusal task.element) geometry.threads)
      (Reduction.chunks ⟨cut.start block, cut.start (block + 1)⟩ geometry.threads) stages :=
  h.imp (fun _ _ hidle => hidle) fun _ stage hstage hmoves => ⟨hmoves, hanswered stage hstage⟩

section Answered

variable (hitems : ∀ index, items index ≤ 1) (hthreads : 0 < geometry.threads)

include hitems

/-- **The stage that moves a chunk** moves it as a whole if it is dense, and element by element otherwise. -/
theorem MovesChunk.exists_perm {chunk : Nat × Nat} {stage : Stage Nat α}
    (h : MovesChunk task.patched items geometry block (total items chunk.1) chunk stage)
    (hanswered : stage.Answered (refusal task.element) geometry.threads) :
    ∃ rest, (stage.all geometry.threads).Perm
        (rest ++ if IsDense items geometry.threads chunk then chunkRequests task items geometry block chunk.1
          else []) ∧
      ∀ request ∈ rest, Single request := by
  obtain ⟨base, n⟩ := chunk
  have hscatter : ∀ n, ∀ request ∈ (List.range geometry.threads).flatMap
      (scatterRequests task.patched items (total items base) base n), Single request := by
    intro n request hr
    obtain ⟨lane, _, hr⟩ := List.mem_flatMap.mp hr
    exact ⟨noted?_of_mem_scatterRequests hr, (mem_scatterRequests hr).2.2⟩
  have hloads : ∀ request ∈ (List.range geometry.threads).flatMap fun _ =>
      [(.load (geometry.threads - 1) : Request Nat α)], Single request := by
    intro request hr
    obtain ⟨_, _, hr⟩ := List.mem_flatMap.mp hr
    rw [List.mem_singleton.mp hr]
    exact ⟨rfl, trivial⟩
  cases h with
  | part short inside fits =>
    rw [if_neg fun h => Nat.ne_of_lt short h.1]
    exact ⟨_, by rw [List.append_nil]; exact .refl _, hscatter n⟩
  | full inside fits =>
    have hparts : ((moveStage task.patched items geometry block (total items base) base).all
        geometry.threads).Perm _ := perm_flatMap_append (List.range geometry.threads)
          (fun _ => [(.load (geometry.threads - 1) : Request Nat α)])
          (moveRequests task.patched items geometry block (total items base) base)
    by_cases hfull : total (laneFlag items base geometry.threads) geometry.threads = geometry.threads
    · rw [hfull] at fits
      have hmoves : ∀ lane, moveRequests task.patched items geometry block (total items base) base lane =
          BlockCopy.copyRequests task.element.patched (geometry.context block lane)
            (chunkSource task geometry.threads base) (task.output.dropped (total items base)) := by
        intro lane
        unfold moveRequests
        rw [if_pos hfull, if_pos fits]
        rfl
      have hchunk : (List.range geometry.threads).flatMap
          (moveRequests task.patched items geometry block (total items base) base) =
            chunkRequests task items geometry block base := by
        refine List.flatMap_congr fun lane hlane => ?_
        rw [hmoves, copyRequests_patched fun request hr => ?_, BlockCopy.copyRequests_eq]
        · rfl
        · refine hanswered lane (List.mem_range.mp hlane) request (List.mem_cons_of_mem _ ?_)
          rwa [hmoves]
      rw [hchunk] at hparts
      rw [if_pos ⟨rfl, fun lane hlane => item_of_full hitems hfull hlane⟩]
      exact ⟨_, hparts, hloads⟩
    · have hmoves : moveRequests task.patched items geometry block (total items base) base =
          scatterRequests task.patched items (total items base) base geometry.threads := by
        funext lane
        rw [moveRequests, if_neg hfull]
      rw [hmoves] at hparts
      rw [if_neg fun h => hfull (total_of_all hitems h.2)]
      exact ⟨_, by rw [List.append_nil]; exact hparts, List.forall_mem_append.mpr ⟨hloads, hscatter _⟩⟩

include hthreads

/-- A chunk is logged if it is dense. -/
theorem MovesChunk.filterMap_noted? {chunk : Nat × Nat} {stage : Stage Nat α}
    (h : MovesChunk task.patched items geometry block (total items chunk.1) chunk stage)
    (hanswered : stage.Answered (refusal task.element) geometry.threads)
    (houtput : task.output = .whole task.output.address task.element.size task.output.length) :
    (stage.all geometry.threads).filterMap noted? = if IsDense items geometry.threads chunk then
      [.bulkCopy (chunkCopy task items geometry block chunk.1)] else [] := by
  obtain ⟨rest, hperm, hrest⟩ := h.exists_perm hitems hanswered
  have hnone : rest.filterMap noted? = [] :=
    List.filterMap_eq_nil_iff.mpr fun request hr => (hrest request hr).1
  have hinside : chunk.1 + chunk.2 ≤ task.input.length := by
    cases h with
    | part _ inside _ => exact inside
    | full inside _ => exact inside
  have hnotes := hperm.filterMap noted?
  rw [List.filterMap_append, hnone, List.nil_append] at hnotes
  by_cases hdense : IsDense items geometry.threads chunk
  · rw [hdense.1] at hinside
    rw [if_pos hdense, filterMap_noted?_chunkRequests hthreads houtput hinside] at hnotes
    rw [if_pos hdense]
    exact List.perm_singleton.mp hnotes
  · rw [if_neg hdense] at hnotes ⊢
    exact List.perm_nil.mp hnotes

section Block

variable {stages : List (Stage Nat α)}
  (h : TakesChunks task.patched items geometry block (cut.start block) (cut.start (block + 1)) stages)
  (hanswered : ∀ stage ∈ stages, stage.Answered (refusal task.element) geometry.threads)

include h hanswered

/-- **The lanes of a block move its dense chunks as a whole**, and everything else element by element. -/
theorem TakesChunks.exists_perm :
    ∃ rest, (stages.flatMap fun stage => stage.all geometry.threads).Perm
        (rest ++ (denseChunks cut items geometry.threads block).flatMap
          (chunkRequests task items geometry block)) ∧
      ∀ request ∈ rest, Single request := by
  have hidle : ∀ stage : Stage Nat α, Idle geometry.threads stage →
      ∀ request ∈ stage.all geometry.threads, Single request := by
    intro stage hidle request hr
    obtain ⟨lane, hlane, hr⟩ := Stage.mem_all.mp hr
    obtain ⟨hsilent, _, hnoted⟩ := hidle lane hlane request hr
    exact ⟨hnoted, hsilent.whole⟩
  obtain ⟨rest, hperm, hrest⟩ := (h.answered hanswered).exists_perm hidle
    fun chunk _ stage hmoves => hmoves.1.exists_perm hitems hmoves.2
  rw [flatMap_chunks hthreads] at hperm
  exact ⟨rest, hperm, hrest⟩

/-- **They log its dense chunks**, one after the other, and nothing else. -/
theorem TakesChunks.filterMap_noted?
    (houtput : task.output = .whole task.output.address task.element.size task.output.length) :
    (stages.flatMap fun stage => stage.all geometry.threads).filterMap noted? =
      (denseChunks cut items geometry.threads block).flatMap fun base =>
        [.bulkCopy (chunkCopy task items geometry block base)] := by
  have hidle : ∀ stage : Stage Nat α, Idle geometry.threads stage →
      (stage.all geometry.threads).filterMap noted? = [] := by
    intro stage hidle
    refine List.filterMap_eq_nil_iff.mpr fun request hr => ?_
    obtain ⟨lane, hlane, hr⟩ := Stage.mem_all.mp hr
    exact (hidle lane hlane request hr).2.2
  rw [List.filterMap_flatMap, (h.answered hanswered).flatMap_eq hidle
    fun chunk _ stage hmoves => hmoves.1.filterMap_noted? hitems hthreads hmoves.2 houtput]
  exact flatMap_chunks hthreads fun base => [Record.bulkCopy (chunkCopy task items geometry block base)]

end Block

end Answered

end Compaction

end BlockMachine
