import BlockMachine.Proofs.Launch.Pace
import BlockMachine.Proofs.Memory.Pieces

/-!
# The order of a log

The barriers of a block order what its lanes do: nothing of a segment comes behind something of a later one.

* `Deed.placed` — the requests of a log, each with its lane and its segment.
* `Deed.Ordered` — the segments of a log come one after the other, and `Grid.ordered_run` says that they do so
  in the log of every block of every launch.
* `Deed.pieces_eq` — what two logs write at a byte is the same if their lanes do the same in them and no two
  lanes write the byte between two barriers.
-/

set_option autoImplicit false

namespace BlockMachine

open History

variable {σ α β : Type}

namespace Deed

/-- The requests of a log, each with its lane and the number of barriers that this lane has taken before it. -/
def placed : (before : Nat → Nat) → List (Nat × Deed σ α) → List ((Nat × Nat) × Request σ α)
  | _, [] => []
  | before, (lane, .asks request) :: rest => ((lane, before lane), request) :: placed before rest
  | before, (lane, .arrives) :: rest => placed (Function.update before lane (before lane + 1)) rest
  | before, (_, .ends) :: rest => placed before rest

theorem map_snd_placed (before : Nat → Nat) (log : List (Nat × Deed σ α)) :
    (placed before log).map Prod.snd = requests log := by
  induction log generalizing before with
  | nil => rfl
  | cons entry rest ih =>
    obtain ⟨lane, deed⟩ := entry
    cases deed with
    | asks request => exact congrArg (request :: ·) (ih before)
    | arrives => exact ih _
    | ends => exact ih before

/-- The barriers that a lane has taken behind some more of a log. -/
theorem arrivals_own_cons (lane party : Nat) (deed : Deed σ α) (log : List (Nat × Deed σ α)) :
    arrivals (own lane ((party, deed) :: log)) =
      (if party = lane ∧ deed.isArrival then 1 else 0) + arrivals (own lane log) := by
  rw [own_cons]
  by_cases hlane : party = lane
  · simp only [hlane, if_true, true_and, arrivals, List.countP_cons, Nat.add_comm]
  · simp only [hlane, if_false, false_and, Nat.zero_add]

theorem placed_append (before : Nat → Nat) (early late : List (Nat × Deed σ α)) :
    placed before (early ++ late) = placed before early ++
      placed (fun lane => before lane + arrivals (own lane early)) late := by
  induction early generalizing before with
  | nil => rfl
  | cons entry rest ih =>
    obtain ⟨party, deed⟩ := entry
    have hbefore : (fun lane => before lane + arrivals (own lane ((party, deed) :: rest))) =
        fun lane => (if party = lane ∧ deed.isArrival then before lane + 1 else before lane) +
          arrivals (own lane rest) := by
      funext lane
      rw [arrivals_own_cons]
      split <;> omega
    rw [hbefore, List.cons_append]
    cases deed with
    | asks request =>
      refine congrArg (((party, before party), request) :: ·) ((ih before).trans ?_)
      simp [isArrival]
    | ends =>
      refine (ih before).trans ?_
      simp [isArrival, placed]
    | arrives =>
      refine (ih _).trans ?_
      simp only [isArrival, and_true, placed]
      refine congrArg (_ ++ placed · late) (funext fun lane => ?_)
      rw [Function.update_apply]
      by_cases hlane : party = lane
      · rw [if_pos hlane.symm, if_pos hlane, hlane]
      · rw [if_neg (Ne.symm hlane), if_neg hlane]

/-- A lane asks for nothing more in a segment that it has left. -/
theorem own_placed_of_lt {before : Nat → Nat} {lane place : Nat} (hlt : place < before lane)
    (log : List (Nat × Deed σ α)) : own (lane, place) (placed before log) = [] := by
  induction log generalizing before with
  | nil => rfl
  | cons entry rest ih =>
    obtain ⟨other, deed⟩ := entry
    cases deed with
    | asks request =>
      rw [placed, own_cons, if_neg]
      · exact ih hlt
      · intro h
        obtain ⟨rfl, hplace⟩ := Prod.mk.inj h
        omega
    | ends => exact ih hlt
    | arrives =>
      refine ih ?_
      rw [Function.update_apply]
      split
      · next h => rw [← h]; omega
      · exact hlt

/-- The requests of a lane in a segment. -/
theorem own_placed (before : Nat → Nat) (log : List (Nat × Deed σ α)) (lane place : Nat) :
    own (lane, before lane + place) (placed before log) = segment place (own lane log) := by
  induction log generalizing before place with
  | nil => cases place <;> rfl
  | cons entry rest ih =>
    obtain ⟨party, deed⟩ := entry
    rw [own_cons]
    by_cases hparty : party = lane
    · subst hparty
      simp only [if_true]
      cases deed with
      | asks request =>
        rw [placed, own_cons]
        cases place with
        | zero =>
          rw [if_pos (by rw [Nat.add_zero])]
          exact congrArg (request :: ·) (ih before 0)
        | succ place =>
          rw [if_neg (by simp)]
          exact ih before (place + 1)
      | ends => cases place <;> exact ih before _
      | arrives =>
        rw [placed]
        cases place with
        | zero =>
          -- the segment lies before the barrier
          exact own_placed_of_lt (by rw [Function.update_self]; exact Nat.lt_succ_self _) rest
        | succ place =>
          have hlater := ih (Function.update before party (before party + 1)) place
          rwa [Function.update_self, Nat.add_assoc, Nat.add_comm 1] at hlater
    · simp only [if_neg hparty]
      cases deed with
      | asks request =>
        rw [placed, own_cons, if_neg fun h => hparty (Prod.mk.inj h).1]
        exact ih before place
      | ends => exact ih before place
      | arrives =>
        have hlater := ih (Function.update before party (before party + 1)) place
        rwa [Function.update_of_ne (Ne.symm hparty)] at hlater

/-- The segments of a log come one after the other. -/
structure Ordered (lanes : Nat) (log : List (Nat × Deed σ α)) : Prop where
  sorted : ((placed (fun _ => 0) log).map fun entry => entry.1.2).Pairwise (· ≤ ·)
  /-- Every lane has taken the barriers in front of what has been done. -/
  reached : ∀ entry ∈ placed (fun _ => 0) log, ∀ lane < lanes, entry.1.2 ≤ arrivals (own lane log)

variable {lanes : Nat} {log : List (Nat × Deed σ α)}

theorem arrivals_own_le_append (log more : List (Nat × Deed σ α)) (lane : Nat) :
    arrivals (own lane log) ≤ arrivals (own lane (log ++ more)) := by
  rw [own_append, arrivals, arrivals, List.countP_append]
  exact Nat.le_add_right ..

/-- A deed that is no request. -/
theorem Ordered.append_of_no_request (h : Ordered lanes log) {more : List (Nat × Deed σ α)}
    (hnone : requests more = []) : Ordered lanes (log ++ more) := by
  have hsame : placed (fun _ => 0) (log ++ more) = placed (fun _ => 0) log := by
    have hmore := map_snd_placed (fun lane => 0 + arrivals (own lane log)) more
    rw [hnone, List.map_eq_nil_iff] at hmore
    rw [placed_append, hmore, List.append_nil]
  refine ⟨hsame ▸ h.sorted, fun entry hentry lane hlane => ?_⟩
  rw [hsame] at hentry
  exact Nat.le_trans (h.reached entry hentry lane hlane) (arrivals_own_le_append log more lane)

/-- A request of a lane that is not ahead of any other one. -/
theorem Ordered.concat_asks (h : Ordered lanes log) {lane : Nat} (hlane : lane < lanes)
    (hleast : ∀ other < lanes, arrivals (own lane log) ≤ arrivals (own other log)) (request : Request σ α) :
    Ordered lanes (log ++ [(lane, .asks request)]) := by
  have hplaced : placed (fun _ => 0) (log ++ [(lane, .asks request)]) =
      placed (fun _ => 0) log ++ [((lane, arrivals (own lane log)), request)] := by
    rw [placed_append]
    simp only [placed, Nat.zero_add]
  refine ⟨?_, fun entry hentry other hother => ?_⟩
  · rw [hplaced, List.map_append, List.pairwise_append]
    refine ⟨h.sorted, List.pairwise_singleton .., fun place hplace place' hplace' => ?_⟩
    obtain ⟨entry, hentry, rfl⟩ := List.mem_map.mp hplace
    rw [List.map_singleton, List.mem_singleton] at hplace'
    rw [hplace']
    exact h.reached entry hentry lane hlane
  · rw [hplaced] at hentry
    refine Nat.le_trans ?_ (arrivals_own_le_append log _ other)
    rcases List.mem_append.mp hentry with hentry | hentry
    · exact h.reached entry hentry other hother
    · rw [List.mem_singleton.mp hentry]
      exact hleast other hother

/-! ## What a log writes -/

/-- A list in the order of numbers is made up of the parts of each number. -/
theorem eq_flatMap_filter {ι : Type} (key : ι → Nat) {list : List ι}
    (hsorted : (list.map key).Pairwise (· ≤ ·)) {bound : Nat} (hbound : ∀ item ∈ list, key item < bound) :
    list = (List.range bound).flatMap fun number => list.filter fun item => key item = number := by
  induction bound generalizing list with
  | zero =>
    rw [List.eq_nil_iff_forall_not_mem.mpr fun item hitem => absurd (hbound item hitem) (Nat.not_lt_zero _)]
    rfl
  | succ bound ih =>
    -- what has a smaller number comes first
    have hsplit : list = (list.filter fun item => key item < bound) ++
        list.filter fun item => key item = bound := by
      clear ih
      induction list with
      | nil => rfl
      | cons item rest ih =>
        rw [List.map_cons, List.pairwise_cons] at hsorted
        have hrest := ih hsorted.2 fun other hother => hbound other (List.mem_cons_of_mem _ hother)
        have hitem := hbound item List.mem_cons_self
        by_cases hlt : key item < bound
        · have hne : key item ≠ bound := Nat.ne_of_lt hlt
          simp only [List.filter_cons, hlt, hne, decide_true, decide_false, if_true, Bool.false_eq_true,
            if_false, List.cons_append]
          exact congrArg (item :: ·) hrest
        · have heq : key item = bound := by omega
          have hnone : (rest.filter fun item => key item < bound) = [] := by
            rw [List.filter_eq_nil_iff]
            intro other hother
            have hle := hsorted.1 (key other) (List.mem_map_of_mem hother)
            simp only [decide_eq_true_eq]
            omega
          rw [hnone, List.nil_append] at hrest
          simp only [List.filter_cons, heq, Nat.lt_irrefl, decide_true, decide_false, if_true,
            Bool.false_eq_true, if_false, hnone, List.nil_append]
          exact congrArg (item :: ·) hrest
    have hfront : ((list.filter fun item => key item < bound).map key).Pairwise (· ≤ ·) :=
      hsorted.sublist (List.filter_sublist.map key)
    have hparts := ih hfront fun item hitem => by simpa using (List.mem_filter.mp hitem).2
    rw [List.range_succ, List.flatMap_append, List.flatMap_singleton]
    nth_rewrite 1 [hsplit]
    refine congrArg (· ++ _) (hparts.trans (List.flatMap_congr fun number hnumber => ?_))
    rw [List.filter_filter]
    refine List.filter_congr fun item _ => ?_
    have hlt := List.mem_range.mp hnumber
    by_cases heq : key item = number
    · rw [decide_eq_true heq, decide_eq_true (heq ▸ hlt : key item < bound)]
      rfl
    · rw [decide_eq_false heq]
      rfl

/-- At a byte that only one lane writes in a segment, the segment writes what this lane does. -/
theorem filterMap_own_eq {ι κ : Type} (write : ι → Option κ) (lane place : Nat)
    {entries : List ((Nat × Nat) × ι)}
    (hothers : ∀ entry ∈ entries, entry.1.2 = place → entry.1.1 ≠ lane → write entry.2 = none) :
    ((entries.filter fun entry => entry.1.2 = place).map Prod.snd).filterMap write =
      (own (lane, place) entries).filterMap write := by
  induction entries with
  | nil => rfl
  | cons entry rest ih =>
    have hrest := ih fun other hother => hothers other (List.mem_cons_of_mem _ hother)
    have hfirst := hothers entry List.mem_cons_self
    obtain ⟨⟨party, number⟩, item⟩ := entry
    rw [own_cons, List.filter_cons]
    by_cases hnumber : number = place
    · rw [if_pos (decide_eq_true hnumber)]
      by_cases hparty : party = lane
      · rw [if_pos (Prod.ext hparty hnumber), List.map_cons, List.filterMap_cons, List.filterMap_cons, hrest]
      · rw [if_neg fun h => hparty (Prod.mk.inj h).1, List.map_cons,
          List.filterMap_cons_none (hfirst hnumber hparty), hrest]
    · rw [if_neg (by simpa using hnumber), if_neg fun h => hnumber (Prod.mk.inj h).2, hrest]

/-- The lanes of what has been placed are those of the log. -/
theorem lt_of_placed (hlog : ∀ entry ∈ log, entry.1 < lanes) {before : Nat → Nat} :
    ∀ entry ∈ placed before log, entry.1.1 < lanes := by
  induction log generalizing before with
  | nil => exact fun _ h => absurd h List.not_mem_nil
  | cons entry rest ih =>
    have hrest : ∀ {before : Nat → Nat}, ∀ entry ∈ placed before rest, entry.1.1 < lanes :=
      ih fun other hother => hlog other (List.mem_cons_of_mem _ hother)
    have hfirst := hlog entry List.mem_cons_self
    obtain ⟨lane, deed⟩ := entry
    cases deed with
    | asks request =>
      intro entry hentry
      rcases List.mem_cons.mp hentry with rfl | hentry
      · exact hfirst
      · exact hrest entry hentry
    | arrives => exact hrest
    | ends => exact hrest

section Pieces

variable {element : Element α} {slot place : Nat}

/-- In no segment two lanes of a log write a byte. -/
def OneWriter (element : Element α) (slot place lanes : Nat) (log : List (Nat × Deed σ α)) : Prop :=
  ∀ barriers, ∀ lane < lanes, ∀ other < lanes, lane ≠ other →
    Request.pieces element slot place (segment barriers (own lane log)) = [] ∨
      Request.pieces element slot place (segment barriers (own other log)) = []

/-- Some lane writes all that a segment writes at a byte. -/
theorem OneWriter.exists_lane (hone : OneWriter element slot place lanes log) (hlanes : 0 < lanes)
    (barriers : Nat) : ∃ lane < lanes, ∀ other < lanes, other ≠ lane →
      Request.pieces element slot place (segment barriers (own other log)) = [] := by
  by_cases hsome : ∃ lane < lanes,
      Request.pieces element slot place (segment barriers (own lane log)) ≠ []
  · obtain ⟨lane, hlane, hpieces⟩ := hsome
    exact ⟨lane, hlane, fun other hother hne =>
      (hone barriers lane hlane other hother (Ne.symm hne)).resolve_left hpieces⟩
  · simp only [not_exists, not_and, not_not] at hsome
    exact ⟨0, hlanes, fun other hother _ => hsome other hother⟩

/-- What a log writes at a byte, one segment after the other. -/
theorem Ordered.pieces_eq (h : Ordered lanes log) (hlog : ∀ entry ∈ log, entry.1 < lanes) {bound : Nat}
    (hbound : ∀ entry ∈ placed (fun _ => 0) log, entry.1.2 < bound) {writer : Nat → Nat}
    (hwriter : ∀ barriers, ∀ other < lanes, other ≠ writer barriers →
      Request.pieces element slot place (segment barriers (own other log)) = []) :
    Request.pieces element slot place (requests log) = (List.range bound).flatMap fun barriers =>
      Request.pieces element slot place (segment barriers (own (writer barriers) log)) := by
  rw [← map_snd_placed (fun _ => 0) log,
    eq_flatMap_filter (fun entry : (Nat × Nat) × Request σ α => entry.1.2) h.sorted hbound,
    List.map_flatMap, Request.pieces_flatMap]
  refine List.flatMap_congr fun barriers _ => ?_
  have hsegment : ∀ lane, own (lane, barriers) (placed (fun _ => 0) log) = segment barriers (own lane log) := by
    intro lane
    have hown := own_placed (fun _ => 0) log lane barriers
    rwa [Nat.zero_add] at hown
  rw [← hsegment]
  refine filterMap_own_eq (Request.piece? element slot place) (writer barriers) barriers
    fun entry hentry hplace hne => ?_
  obtain ⟨⟨lane, number⟩, request⟩ := entry
  obtain rfl : number = barriers := hplace
  have hnone := hwriter number lane (lt_of_placed hlog _ hentry) hne
  rw [Request.pieces, List.filterMap_eq_nil_iff] at hnone
  refine hnone request ?_
  rw [← hsegment]
  exact mem_own.mpr hentry

/-- **Logs whose lanes do the same write the same at a byte**, if in no segment two lanes write it. -/
theorem pieces_eq {other : List (Nat × Deed σ α)} (hlanes : 0 < lanes) (h : Ordered lanes log)
    (h' : Ordered lanes other) (hlog : ∀ entry ∈ log, entry.1 < lanes)
    (hlog' : ∀ entry ∈ other, entry.1 < lanes) (hown : ∀ lane < lanes, own lane log = own lane other)
    (hone : OneWriter element slot place lanes log) :
    Request.pieces element slot place (requests log) = Request.pieces element slot place (requests other) := by
  choose writer hlt hwriter using hone.exists_lane hlanes
  have hbound : ∀ entry ∈ placed (fun _ => 0) log, entry.1.2 < arrivals (own 0 log) + 1 :=
    fun entry hentry => Nat.lt_succ_of_le (h.reached entry hentry 0 hlanes)
  have hbound' : ∀ entry ∈ placed (fun _ => 0) other, entry.1.2 < arrivals (own 0 log) + 1 := by
    intro entry hentry
    rw [hown 0 hlanes]
    exact Nat.lt_succ_of_le (h'.reached entry hentry 0 hlanes)
  rw [h.pieces_eq hlog hbound hwriter, h'.pieces_eq hlog' hbound' fun barriers lane hlane hne => by
    rw [← hown lane hlane]
    exact hwriter barriers lane hlane hne]
  exact List.flatMap_congr fun barriers _ => by rw [hown _ (hlt barriers)]

end Pieces

end Deed

/-! ## The segments of a launch -/

namespace Grid

/-- **The segments of every block come one after the other**, in every launch. -/
theorem ordered_run (scheduling : Scheduling) (kernel : Kernel σ α) (geometry : Geometry)
    (store : Store α) (places : List (Nat × Nat)) (block : Nat) :
    Deed.Ordered geometry.threads (ofBlock block (Grid.log scheduling kernel geometry store places)) := by
  have hnone : Deed.Ordered geometry.threads ([] : List (Nat × Deed σ α)) :=
    ⟨List.Pairwise.nil, fun _ h => absurd h List.not_mem_nil⟩
  have hkeeps := @keeps_run σ α kernel geometry
    (fun _ crew log => (∃ segment, Crew.Abreast geometry.threads segment crew log) ∧
      Deed.Ordered geometry.threads log) ?_ ?_ scheduling store places block
  · cases hcrew : (run scheduling kernel geometry store places).crew? block with
    | none =>
      rw [hcrew] at hkeeps
      rw [show ofBlock block _ = [] from hkeeps]
      exact hnone
    | some crew =>
      rw [hcrew] at hkeeps
      exact hkeeps.2
  · intro block slots _
    have hstart := Crew.abreast_start slots (kernel.lanes geometry block)
    rw [kernel.length_lanes] at hstart
    exact ⟨⟨0, hstart⟩, hnone⟩
  · rintro block lane store crew crew' deed log ⟨⟨segment, habreast⟩, hordered⟩ hturn
    refine ⟨habreast.turn hturn, ?_⟩
    -- whoever asks has taken no more barriers than the others
    have hasks : ∀ (program : Lane σ α Unit) (request : Request σ α),
        crew.stations[lane]? = some (.running program) →
          Deed.Ordered geometry.threads (log ++ [(lane, .asks request)]) := by
      intro program request hs
      refine hordered.concat_asks (habreast.length ▸ (List.getElem?_eq_some_iff.mp hs).1)
        (fun other hother => ?_) request
      rw [(habreast.stands lane _ hs).arrivals_of_running]
      exact (arrivals_of_stands (habreast.stands other _
        (List.getElem?_eq_getElem (habreast.length ▸ hother : other < crew.stations.length)))).1
    cases hturn with
    | rests _ => exact hordered.append_of_no_request rfl
    | finishes _ => exact hordered.append_of_no_request rfl
    | faults _ => exact hordered.append_of_no_request rfl
    | asks h _ => exact hasks _ _ h
    | panics h _ => exact hasks _ _ h
    | waits _ _ _ => exact hordered.append_of_no_request rfl
    | opens _ _ _ => exact hordered.append_of_no_request rfl
    | turnedAway _ _ => exact hordered.append_of_no_request rfl
    | released _ _ => exact hordered.append_of_no_request rfl

end Grid

end BlockMachine
