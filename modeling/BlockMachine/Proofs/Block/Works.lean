import BlockMachine.Proofs.Block.Stage

/-!
# Work that is done stage by stage

The lanes of a block often do one piece of work after the other, each of them in one stage, and in the stages
between them they only prepare the next one.

* `Stage.Works` — stages in which some pieces of work are done, in their order.
* `Stage.Works.flatMap_eq`, `Stage.Works.exists_perm` — what is collected from all of them.
* `Stage.Works.split` — what is done before a stage, if that is no pause.
-/

set_option autoImplicit false

namespace BlockMachine

namespace Stage

variable {σ α ι κ : Type}

/-- Stages in which some pieces of work are done, in their order and each in a stage of its own; all other
stages are idle. -/
inductive Works (idle : Stage σ α → Prop) (does : ι → Stage σ α → Prop) : List ι → List (Stage σ α) → Prop
  | nil : Works idle does [] []
  | pause {items : List ι} {stage : Stage σ α} {stages : List (Stage σ α)} (h : idle stage)
      (later : Works idle does items stages) : Works idle does items (stage :: stages)
  | work {item : ι} {items : List ι} {stage : Stage σ α} {stages : List (Stage σ α)} (h : does item stage)
      (later : Works idle does items stages) : Works idle does (item :: items) (stage :: stages)

namespace Works

variable {idle idle' : Stage σ α → Prop} {does does' : ι → Stage σ α → Prop} {items later : List ι}
  {stages stages' past future : List (Stage σ α)} {stage : Stage σ α}

theorem of_idle (h : ∀ stage ∈ stages, idle stage) : Works idle does [] stages := by
  induction stages with
  | nil => exact .nil
  | cons stage rest ih =>
    exact .pause (h stage List.mem_cons_self) (ih fun other hother => h other (List.mem_cons_of_mem _ hother))

theorem append (h : Works idle does items stages) (h' : Works idle does later stages') :
    Works idle does (items ++ later) (stages ++ stages') := by
  induction h with
  | nil => exact h'
  | pause hidle _ ih => exact .pause hidle ih
  | work hdoes _ ih => exact .work hdoes ih

theorem imp (h : Works idle does items stages) (hidle : ∀ stage ∈ stages, idle stage → idle' stage)
    (hdoes : ∀ item, ∀ stage ∈ stages, does item stage → does' item stage) :
    Works idle' does' items stages := by
  induction h with
  | nil => exact .nil
  | pause hpause _ ih =>
    exact .pause (hidle _ List.mem_cons_self hpause)
      (ih (fun other hother => hidle other (List.mem_cons_of_mem _ hother))
        fun item other hother => hdoes item other (List.mem_cons_of_mem _ hother))
  | work hwork _ ih =>
    exact .work (hdoes _ _ List.mem_cons_self hwork)
      (ih (fun other hother => hidle other (List.mem_cons_of_mem _ hother))
        fun item other hother => hdoes item other (List.mem_cons_of_mem _ hother))

theorem of_map {f : κ → ι} {list : List κ} (h : Works idle does (list.map f) stages) :
    Works idle (fun item => does (f item)) list stages := by
  generalize hitems : list.map f = items at h
  induction h generalizing list with
  | nil =>
    rw [List.map_eq_nil_iff.mp hitems]
    exact .nil
  | pause hidle _ ih => exact .pause hidle (ih hitems)
  | work hdoes _ ih =>
    obtain ⟨first, rest, rfl, rfl, hrest⟩ := List.map_eq_cons_iff.mp hitems
    exact .work hdoes (ih hrest)

/-- Each stage is idle or does a piece of the work, -/
theorem idle_or_does (h : Works idle does items stages) (hstage : stage ∈ stages) :
    idle stage ∨ ∃ item ∈ items, does item stage := by
  induction h with
  | nil => cases hstage
  | pause hidle _ ih =>
    rcases List.mem_cons.mp hstage with rfl | hstage
    · exact .inl hidle
    · exact ih hstage
  | work hdoes _ ih =>
    rcases List.mem_cons.mp hstage with rfl | hstage
    · exact .inr ⟨_, List.mem_cons_self, hdoes⟩
    · exact (ih hstage).imp_right fun ⟨item, hitem, hdoes⟩ => ⟨item, List.mem_cons_of_mem _ hitem, hdoes⟩

/-- and each piece is done. -/
theorem exists_stage (h : Works idle does items stages) {item : ι} (hitem : item ∈ items) :
    ∃ stage ∈ stages, does item stage := by
  induction h with
  | nil => cases hitem
  | pause _ _ ih =>
    obtain ⟨stage, hstage, hdoes⟩ := ih hitem
    exact ⟨stage, List.mem_cons_of_mem _ hstage, hdoes⟩
  | work hdoes _ ih =>
    rcases List.mem_cons.mp hitem with rfl | hitem
    · exact ⟨_, List.mem_cons_self, hdoes⟩
    · obtain ⟨stage, hstage, hdoes⟩ := ih hitem
      exact ⟨stage, List.mem_cons_of_mem _ hstage, hdoes⟩

/-- What is collected from the stages, if each is told from the piece of work that is done in it, -/
theorem flatMap_eq {ρ : Type} {collect : Stage σ α → List ρ} {part : ι → List ρ}
    (h : Works idle does items stages) (hidle : ∀ stage, idle stage → collect stage = [])
    (hdoes : ∀ item ∈ items, ∀ stage, does item stage → collect stage = part item) :
    stages.flatMap collect = items.flatMap part := by
  induction h with
  | nil => rfl
  | pause hpause _ ih =>
    rw [List.flatMap_cons, hidle _ hpause, List.nil_append]
    exact ih hdoes
  | work hwork _ ih =>
    rw [List.flatMap_cons, List.flatMap_cons, hdoes _ List.mem_cons_self _ hwork,
      ih fun item hitem => hdoes item (List.mem_cons_of_mem _ hitem)]

/-- and if this is so but for something that does not count. -/
theorem exists_perm {ρ : Type} {collect : Stage σ α → List ρ} {part : ι → List ρ} {rests : ρ → Prop}
    (h : Works idle does items stages) (hidle : ∀ stage, idle stage → ∀ entry ∈ collect stage, rests entry)
    (hdoes : ∀ item ∈ items, ∀ stage, does item stage →
      ∃ rest, (collect stage).Perm (rest ++ part item) ∧ ∀ entry ∈ rest, rests entry) :
    ∃ rest, (stages.flatMap collect).Perm (rest ++ items.flatMap part) ∧ ∀ entry ∈ rest, rests entry := by
  induction h with
  | nil => exact ⟨[], .refl _, fun _ hr => absurd hr List.not_mem_nil⟩
  | @pause _ stage _ hpause _ ih =>
    obtain ⟨rest, hperm, hrest⟩ := ih hdoes
    refine ⟨collect stage ++ rest, ?_, List.forall_mem_append.mpr ⟨hidle stage hpause, hrest⟩⟩
    rw [List.flatMap_cons, List.append_assoc]
    exact hperm.append_left _
  | @work item items stage stages hwork _ ih =>
    obtain ⟨early, hearly, hearlyRests⟩ := hdoes item List.mem_cons_self stage hwork
    obtain ⟨rest, hperm, hrest⟩ := ih fun other hother => hdoes other (List.mem_cons_of_mem _ hother)
    refine ⟨early ++ rest, ?_, List.forall_mem_append.mpr ⟨hearlyRests, hrest⟩⟩
    rw [List.flatMap_cons, List.flatMap_cons]
    refine (hearly.append hperm).trans ?_
    rw [List.append_assoc, List.append_assoc]
    exact (List.perm_append_comm_assoc _ _ _).append_left _

/-- **A stage that is not idle** does a piece of the work, and those before it have been done before. -/
theorem split (h : Works idle does items (past ++ stage :: future)) (hbusy : ¬ idle stage) :
    ∃ early item late, items = early ++ item :: late ∧ Works idle does early past ∧ does item stage := by
  generalize hstages : past ++ stage :: future = stages at h
  induction h generalizing past with
  | nil => exact absurd hstages (by simp)
  | @pause items first rest hidle _ ih =>
    cases past with
    | nil =>
      obtain ⟨rfl, _⟩ := List.cons.inj hstages
      exact absurd hidle hbusy
    | cons _ past =>
      obtain ⟨rfl, hrest⟩ := List.cons.inj hstages
      obtain ⟨early, item, late, hitems, hpast, hdoes⟩ := ih hrest
      exact ⟨early, item, late, hitems, .pause hidle hpast, hdoes⟩
  | @work item items first rest hdoes _ ih =>
    cases past with
    | nil =>
      obtain ⟨rfl, _⟩ := List.cons.inj hstages
      exact ⟨[], item, items, rfl, .nil, hdoes⟩
    | cons _ past =>
      obtain ⟨rfl, hrest⟩ := List.cons.inj hstages
      obtain ⟨early, other, late, rfl, hpast, hother⟩ := ih hrest
      exact ⟨item :: early, other, late, rfl, .work hdoes hpast, hother⟩

end Works

end Stage

end BlockMachine
