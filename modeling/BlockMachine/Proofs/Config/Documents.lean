import Mathlib.Data.List.Nodup
import Mathlib.Data.List.Perm.Basic
import BlockMachine.Config.Printer
import BlockMachine.Proofs.Document.Written

/-!
# The documents of a configuration

A configuration has many documents: the members of an object may stand in any order, others of other
names may stand among them, and fields with their default value may be left out.

* `Grammar.Rearranged` — members in another order, with others among them.
* `Capability.Told` — the documents of a level.
* `LaunchConfig.Told` — the documents of a configuration.
* `LaunchConfig.told_object`, `LaunchConfig.told_toJson` — the written ones are among them.
-/

set_option autoImplicit false

namespace BlockMachine

open Grammar

/-! ## Members in another order -/

namespace Grammar

/-- Members in any order, with further ones among them that have other names than those of the list, and
scalars for their values. -/
def Rearranged (names : List String) (own members : List (String × List Char)) : Prop :=
  ∃ further : List (String × List Char),
    (∀ member ∈ further, member.1 ∉ names ∧ ScalarText member.2) ∧ members.Perm (own ++ further)

namespace Rearranged

variable {names : List String} {own members read later : List (String × List Char)} {name : String}
  {value : List Char}

/-- Members may be rearranged before they are written. -/
theorem of_values {own members further : List (String × Value)}
    (hfurther : ∀ member ∈ further, member.1 ∉ names ∧ member.2.IsScalar)
    (hperm : members.Perm (own ++ further)) : Rearranged names (ofValues own) (ofValues members) := by
  refine ⟨ofValues further, fun member hmember => ?_, ?_⟩
  · obtain ⟨member, hmem, rfl⟩ := List.mem_map.mp hmember
    obtain ⟨hname, hscalar⟩ := hfurther member hmem
    exact ⟨hname, scalarText_render hscalar⟩
  · have hwritten := hperm.map fun member : String × Value => (member.1, member.2.render)
    rwa [List.map_append] at hwritten

/-- No member is lost. -/
theorem mem (h : Rearranged names own members) (hmem : (name, value) ∈ own) :
    (name, value) ∈ members := by
  obtain ⟨_, _, hperm⟩ := h
  exact hperm.mem_iff.mpr (List.mem_append_left _ hmem)

/-- A member with one of the names has its own value. -/
theorem own_of_mem (h : Rearranged names own members) (hmem : (name, value) ∈ members)
    (hname : name ∈ names) : (name, value) ∈ own := by
  obtain ⟨further, hfurther, hperm⟩ := h
  rcases List.mem_append.mp (hperm.mem_iff.mp hmem) with hown | hother
  · exact hown
  · exact absurd hname (hfurther _ hother).1

/-- A member of another name has a scalar for its value, if `own` has only the names of the list. -/
theorem scalar_of_mem (h : Rearranged names own members) (hown : ∀ member ∈ own, member.1 ∈ names)
    (hmem : (name, value) ∈ members) (hname : name ∉ names) : ScalarText value := by
  obtain ⟨further, hfurther, hperm⟩ := h
  rcases List.mem_append.mp (hperm.mem_iff.mp hmem) with hmine | hother
  · exact absurd (hown _ hmine) hname
  · exact (hfurther _ hother).2

/-- **One of the names that occurs once in `own` does not occur twice.** -/
theorem fresh (h : Rearranged names own members) (hown : (own.map Prod.fst).Nodup)
    (hmembers : members = read ++ (name, value) :: later) (hname : name ∈ names) :
    name ∉ read.map Prod.fst := by
  obtain ⟨further, hfurther, hperm⟩ := h
  have hother : (further.map Prod.fst).count name = 0 := by
    refine List.count_eq_zero.mpr fun hmem => ?_
    obtain ⟨member, hmember, rfl⟩ := List.mem_map.mp hmem
    exact (hfurther member hmember).1 hname
  have honce : (own.map Prod.fst).count name ≤ 1 := List.nodup_iff_count_le_one.mp hown name
  have hcount := (hperm.map Prod.fst).count_eq name
  rw [hmembers] at hcount
  simp only [List.map_append, List.map_cons, List.count_append, List.count_cons_self] at hcount
  exact List.count_eq_zero.mp (by omega)

end Rearranged

end Grammar

/-! ## The documents -/

namespace Capability

/-- The members of the document of a level. -/
def members (level : Capability) : List (String × Value) :=
  [("major", .natural level.major.toNat), ("minor", .natural level.minor.toNat)]

/-- The documents of a level. -/
def Told (level : Capability) (chars : List Char) : Prop :=
  ∃ members, Rearranged (level.members.map Prod.fst) (ofValues level.members) members ∧
    Object members chars

/-- The written object of a level is one of its documents. -/
theorem told_object (level : Capability) {members further : List (String × Value)}
    (hfurther : ∀ member ∈ further, member.1 ∉ level.members.map Prod.fst ∧ member.2.IsScalar)
    (hperm : members.Perm (level.members ++ further)) : level.Told (Value.object members).render :=
  ⟨ofValues members, .of_values hfurther hperm, object_render members⟩

end Capability

namespace LaunchConfig

/-- The characters of the value of a field; those of the level may be any of its documents. -/
def fieldText (config : LaunchConfig) (level : List Char) : ConfigField → List Char
  | .capability => level
  | field => (config.fieldValue field).render

/-- The documents of a configuration.  A field may be left out if it has the value it has by default on a
host with a number of processors. -/
inductive Told (config : LaunchConfig) (hostProcessors : UInt64) : List Char → Prop
  | mk {kept : List ConfigField} {level chars front behind : List Char}
      {members : List (String × List Char)} (hkept : kept.Nodup)
      (hleft : ∀ field, field ∉ kept →
        config.fieldValue field =
          ({ multiprocessors := hostProcessors } : LaunchConfig).fieldValue field)
      (hlevel : config.capability.Told level)
      (hmembers : Rearranged (ConfigField.all.map ConfigField.name)
        (kept.map fun field => (field.name, config.fieldText level field)) members)
      (hobject : Object members chars) (hfront : Blank front) (hbehind : Blank behind) :
      Told config hostProcessors (front ++ chars ++ behind)

/-- **The written object of a configuration is one of its documents**, with `level` for its level. -/
theorem told_object (config : LaunchConfig) {hostProcessors : UInt64} {kept : List ConfigField}
    {level : Value} {members further : List (String × Value)} (hkept : kept.Nodup)
    (hleft : ∀ field, field ∉ kept → config.fieldValue field =
      ({ multiprocessors := hostProcessors } : LaunchConfig).fieldValue field)
    (hlevel : config.capability.Told level.render)
    (hfurther : ∀ member ∈ further,
      member.1 ∉ ConfigField.all.map ConfigField.name ∧ member.2.IsScalar)
    (hperm : members.Perm (kept.map (fun field =>
      (field.name, if field = .capability then level else config.fieldValue field)) ++ further)) :
    config.Told hostProcessors (Value.object members).render := by
  have hmembers := Rearranged.of_values hfurther hperm
  have hown : ofValues (kept.map fun field =>
      (field.name, if field = .capability then level else config.fieldValue field)) =
        kept.map fun field => (field.name, config.fieldText level.render field) := by
    rw [ofValues, List.map_map]
    refine List.map_congr_left fun field _ => ?_
    cases field <;> rfl
  rw [hown] at hmembers
  have htold : config.Told hostProcessors ([] ++ _ ++ []) :=
    .mk hkept hleft hlevel hmembers (object_render members) blank_nil blank_nil
  rwa [List.append_nil, List.nil_append] at htold

/-- The document of a configuration as it is written is one of its documents. -/
theorem told_toJson (config : LaunchConfig) (hostProcessors : UInt64) :
    config.Told hostProcessors config.toJson.toList := by
  have hsame : config.capability.members.Perm (config.capability.members ++ []) := by
    rw [List.append_nil]
  have hlevel : config.capability.Told config.capability.value.render :=
    config.capability.told_object (by simp) hsame
  have hperm : config.members.Perm (ConfigField.all.map (fun field =>
      (field.name, if field = .capability then config.capability.value else config.fieldValue field)) ++
        []) := by
    simp [members, ConfigField.all, fieldValue]
  rw [toJson, String.toList_ofList]
  exact config.told_object (by decide) (fun field hfield => absurd (by cases field <;> decide) hfield)
    hlevel (by simp) hperm

end LaunchConfig

end BlockMachine
