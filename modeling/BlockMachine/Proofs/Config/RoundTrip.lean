import BlockMachine.Proofs.Config.Documents
import BlockMachine.Proofs.Document.Members

/-!
# A configuration is read back from its documents

At any time the fields are known whose names have been read, and no others.

* `Reader.learns_rearranged` — the members of an object, in any order and with others among them.
* `Reader.takes_word64`, `Reader.takes_optionalWord`, `Scheduling.takes_read` — the values of fields.
* `CapabilityFields.takes_read` — a level.
* `ConfigFields.takes_reader`, `LaunchConfig.config_heard` — a configuration, and its defaults.
* `LaunchConfig.fromJson_told` — the round trip.
-/

set_option autoImplicit false

namespace BlockMachine

open Grammar

namespace Reader

variable {front rest : List Char} {expected : Expected}

/-! ## Members in any order -/

/-- **The members of an object may stand in any order, and others may stand among them.**  `known` tells
what is known when the members of some names have been read: each of the own ones adds its value, and
any other one is passed over. -/
theorem learns_rearranged {β : Type} {member : β → String → Reader β} {known : List String → β}
    {names : List String} {own members : List (String × List Char)}
    (hmembers : Rearranged names own members) (hnodup : (own.map Prod.fst).Nodup)
    (hnames : ∀ field ∈ own, field.1 ∈ names)
    (hown : ∀ (read : List String) (name : String) (value : List Char),
      (name, value) ∈ own → name ∉ read →
      ∀ between behind rest : List Char, Blank between → Blank behind → Delimited rest →
        (member (known read) name).Takes (between ++ ':' :: (behind ++ value)) rest
          (known (read ++ [name])))
    (hother : ∀ (read : List String) (name : String), name ∉ names →
      member (known read) name = (do otherMember; return known (read ++ [name]))) :
    Learns member (fun read => known (read.map Prod.fst)) members := by
  intro read later name value hall between behind rest hbetween hbehind hrest
  have hmem : (name, value) ∈ members := by rw [hall]; simp
  show (member (known (read.map Prod.fst)) name).Takes _ _
    (known ((read ++ [(name, value)]).map Prod.fst))
  rw [List.map_append, List.map_singleton]
  by_cases hname : name ∈ names
  · exact hown _ name value (hmembers.own_of_mem hmem hname) (hmembers.fresh hnodup hall hname)
      between behind rest hbetween hbehind hrest
  · have hscalar := hmembers.scalar_of_mem hnames hmem hname
    rw [hother _ name hname]
    exact (takes_otherMember hbetween hbehind hscalar hrest).map

/-! ## Values of fields -/

/-- The text of a natural number is its digits. -/
theorem render_natural (number : Nat) :
    (Value.natural number).render = Decimal.digitsOf number := by
  simp [Value.natural, Value.render, Value.renderInteger]

/-- **A natural number below a limit is read back.** -/
theorem takes_natural {number limit : Nat} (hnumber : number < limit) (hlimit : limit ≤ Word.limit)
    (hfront : Blank front) (hrest : Delimited rest) :
    (natural expected limit).Takes (front ++ (Value.natural number).render) rest number := by
  have hread := takes_number (Nat.lt_of_lt_of_le hnumber hlimit) hrest
  rw [render_natural]
  obtain ⟨d, later, hdigits, hd⟩ := (Decimal.digits_digitsOf number).head
  have hstarts : startsNumber d = true := by simp [startsNumber, hd]
  rw [hdigits] at hread ⊢
  refine Takes.of_next hfront (isBlank_of_isDigit hd) rfl ?_
  show (if startsNumber d = true then _ else _ : Reader Nat).Takes _ _ _
  rw [if_pos hstarts]
  refine hread.bind_nil ?_
  show (if number < limit then _ else _ : Reader Nat).Takes _ _ _
  rw [if_pos hnumber]
  exact takes_pure

/-- A word is read back. -/
theorem takes_word64 (word : UInt64) (hfront : Blank front) (hrest : Delimited rest) :
    word64.Takes (front ++ (Value.natural word.toNat).render) rest word := by
  have hread : (natural .word Word.limit).Takes _ rest word.toNat :=
    takes_natural word.toNat_lt (Nat.le_refl _) hfront hrest
  have hword : word64.Takes _ rest (UInt64.ofNat word.toNat) := hread.map
  rwa [UInt64.ofNat_toNat] at hword

/-- Half a word is read back. -/
theorem takes_word32 (word : UInt32) (hfront : Blank front) (hrest : Delimited rest) :
    word32.Takes (front ++ (Value.natural word.toNat).render) rest word := by
  have hread : (natural .halfWord UInt32.size).Takes _ rest word.toNat :=
    takes_natural word.toNat_lt (by decide) hfront hrest
  have hword : word32.Takes _ rest (UInt32.ofNat word.toNat) := hread.map
  rwa [UInt32.ofNat_toNat] at hword

/-- **A word that may be absent is read back.** -/
theorem takes_optionalWord (word : Option UInt64) (hfront : Blank front) (hrest : Delimited rest) :
    optionalWord.Takes (front ++ (LaunchConfig.optionalWord word).render) rest word := by
  cases word with
  | none => exact Takes.of_next hfront rfl rfl (takes_word "null".toList).map
  | some word =>
    obtain ⟨d, later, hdigits, hd⟩ := (Decimal.digits_digitsOf word.toNat).head
    have hn : ¬some d = some 'n' := by simp [ne_of_isDigit hd (c := 'n') rfl]
    have hword := takes_word64 word blank_nil hrest
    have hread : (do return some (← word64) : Reader (Option UInt64)).Takes _ rest (some word) :=
      hword.map
    simp only [LaunchConfig.optionalWord, render_natural, hdigits, List.nil_append] at hread ⊢
    refine Takes.of_next hfront (isBlank_of_isDigit hd) rfl ?_
    rw [if_neg hn]
    exact hread

end Reader

/-! ## Scheduling -/

/-- **A policy is read back.** -/
theorem Scheduling.takes_read (policy : Scheduling) {front rest : List Char} (hfront : Blank front) :
    Scheduling.read.Takes (front ++ (Value.text policy.name).render) rest policy := by
  have hname : Reader.text.Takes (policy.name.toList.flatMap Value.renderChar ++ ['"']) rest
      policy.name := Reader.takes_text policy.name
  have hfound : ofName? policy.name = some policy := by cases policy <;> rfl
  refine Reader.Takes.of_next hfront rfl rfl (Reader.Takes.of_take (hname.bind_nil ?_))
  rw [hfound]
  exact Reader.takes_pure

/-! ## The level -/

namespace CapabilityFields

variable {level : Capability} {chars front rest : List Char}

/-- What is known of a level when the members of some names have been read. -/
def heard (level : Capability) (names : List String) : CapabilityFields where
  major := if "major" ∈ names then some level.major else none
  minor := if "minor" ∈ names then some level.minor else none

/-- **Each number of a level is read back**, unless it is known already. -/
theorem takes_member {names : List String} {name : String} {value between behind : List Char}
    (hown : (name, value) ∈ ofValues level.members) (hfresh : name ∉ names)
    (hbetween : Blank between) (hbehind : Blank behind) (hrest : Delimited rest) :
    (member (heard level names) name).Takes (between ++ ':' :: (behind ++ value)) rest
      (heard level (names ++ [name])) := by
  simp only [ofValues, Capability.members, List.map_cons, List.map_nil, List.mem_cons,
    List.not_mem_nil, or_false, Prod.mk.injEq] at hown
  obtain ⟨rfl, rfl⟩ | ⟨rfl, rfl⟩ := hown
  · have hread := Reader.takes_word32 level.major hbehind hrest
    have hheard : heard level (names ++ ["major"]) =
        { heard level names with major := some level.major } := by simp [heard]
    have hunknown : (heard level names).major = none := if_neg hfresh
    rw [hheard, member, if_pos rfl, hunknown]
    exact Reader.takes_named hbetween hread.map
  · have hread := Reader.takes_word32 level.minor hbehind hrest
    have hheard : heard level (names ++ ["minor"]) =
        { heard level names with minor := some level.minor } := by simp [heard]
    have hunknown : (heard level names).minor = none := if_neg hfresh
    rw [hheard, member, if_neg (by decide), if_pos rfl, hunknown]
    exact Reader.takes_named hbetween hread.map

/-- Any other member of a level is passed over. -/
theorem member_other {names : List String} {name : String}
    (hname : name ∉ level.members.map Prod.fst) :
    member (heard level names) name =
      (do Reader.otherMember; return heard level (names ++ [name])) := by
  simp only [Capability.members, List.map_cons, List.map_nil, List.mem_cons, List.not_mem_nil, or_false,
    not_or] at hname
  obtain ⟨hmajor, hminor⟩ := hname
  have hheard : heard level (names ++ [name]) = heard level names := by
    simp [heard, Ne.symm hmajor, Ne.symm hminor]
  rw [member, if_neg hmajor, if_neg hminor, hheard]

/-- **A level is read back from each of its documents.** -/
theorem takes_read (htold : level.Told chars) (hfront : Blank front) :
    CapabilityFields.read.Takes (front ++ chars) rest level := by
  obtain ⟨members, hmembers, ⟨hobject⟩⟩ := htold
  have hlearns : Reader.Learns member (fun read => heard level (read.map Prod.fst)) members :=
    Reader.learns_rearranged hmembers (by simp [ofValues, Capability.members])
      (by simp [ofValues, Capability.members]) (fun _ _ _ hown hfresh _ _ _ => takes_member hown hfresh)
      (fun _ _ => member_other)
  have hmajor : "major" ∈ members.map Prod.fst :=
    List.mem_map.mpr ⟨_, hmembers.mem (List.mem_cons_self ..), rfl⟩
  have hminor : "minor" ∈ members.map Prod.fst :=
    List.mem_map.mpr ⟨_, hmembers.mem (List.mem_cons_of_mem _ (List.mem_cons_self ..)), rfl⟩
  have hheard : heard level (members.map Prod.fst) = ⟨some level.major, some level.minor⟩ := by
    simp [heard, hmajor, hminor]
  have hread := Reader.takes_object rest hlearns hobject
  rw [hheard] at hread
  exact Reader.takes_parts hfront (hread.bind_nil Reader.takes_pure)

end CapabilityFields

/-! ## The configuration -/

namespace ConfigFields

variable {config : LaunchConfig} {level chars front rest : List Char}

/-- The value of a field whose name has been read. -/
def heardValue {α : Type} (names : List String) (field : ConfigField) (value : α) : Option α :=
  if field.name ∈ names then some value else none

/-- What is known of a configuration when the members of some names have been read. -/
def heard (config : LaunchConfig) (names : List String) : ConfigFields where
  threadsPerBlock := heardValue names .threadsPerBlock config.threadsPerBlock
  multiprocessors := heardValue names .multiprocessors config.multiprocessors
  maxBlocks := heardValue names .maxBlocks config.maxBlocks
  capability := heardValue names .capability config.capability
  scheduling := heardValue names .scheduling config.scheduling
  tempLimit := heardValue names .tempLimit config.tempLimit

/-- The field of its own name. -/
theorem ofName?_name (field : ConfigField) : ConfigField.ofName? field.name = some field := by
  cases field <;> rfl

/-- Every field is in the list of them. -/
theorem mem_all (field : ConfigField) : field ∈ ConfigField.all := by cases field <;> decide

/-- Fields of the same name are equal. -/
theorem name_injective {field other : ConfigField} (h : field.name = other.name) : field = other := by
  have hfound := ofName?_name field
  rw [h, ofName?_name] at hfound
  exact (Option.some.inj hfound).symm

/-- No field has any other name. -/
theorem ofName?_other {name : String} (hname : name ∉ ConfigField.all.map ConfigField.name) :
    ConfigField.ofName? name = none := by
  refine List.find?_eq_none.mpr fun field hfield hsame => hname ?_
  exact List.mem_map.mpr ⟨field, hfield, beq_iff_eq.mp hsame⟩

/-- A field is unknown as long as its name has not been read. -/
theorem has_heard {names : List String} {field : ConfigField} (hfresh : field.name ∉ names) :
    (heard config names).has field = false := by
  cases field <;> simp [has, heard, heardValue, hfresh]

/-- A name that is read adds the value of its own field. -/
theorem heardValue_append {α : Type} (names : List String) (field other : ConfigField) (value : α) :
    heardValue (names ++ [field.name]) other value =
      if other = field then some value else heardValue names other value := by
  have hsame : other.name = field.name ↔ other = field := ⟨name_injective, fun heq => heq ▸ rfl⟩
  by_cases hother : other = field
  · simp [heardValue, hother]
  · simp [heardValue, hother, hsame]

/-- **The value of each field is read back.** -/
theorem takes_readField {names : List String} {behind : List Char} (field : ConfigField)
    (hlevel : config.capability.Told level) (hbehind : Blank behind) (hrest : Delimited rest) :
    ((heard config names).readField field).Takes (behind ++ config.fieldText level field) rest
      (heard config (names ++ [field.name])) := by
  simp only [heard, heardValue_append]
  cases field with
  | threadsPerBlock => exact (Reader.takes_word64 config.threadsPerBlock hbehind hrest).map
  | multiprocessors => exact (Reader.takes_word64 config.multiprocessors hbehind hrest).map
  | maxBlocks => exact (Reader.takes_optionalWord config.maxBlocks hbehind hrest).map
  | capability => exact (CapabilityFields.takes_read hlevel hbehind).map
  | scheduling => exact (Scheduling.takes_read config.scheduling hbehind).map
  | tempLimit => exact (Reader.takes_optionalWord config.tempLimit hbehind hrest).map

/-- A field that has not been read yet is read back. -/
theorem takes_member {names : List String} {between behind : List Char} {field : ConfigField}
    (hlevel : config.capability.Told level) (hfresh : field.name ∉ names) (hbetween : Blank between)
    (hbehind : Blank behind) (hrest : Delimited rest) :
    (member (heard config names) field.name).Takes
      (between ++ ':' :: (behind ++ config.fieldText level field)) rest
      (heard config (names ++ [field.name])) := by
  rw [member, ofName?_name]
  show (if (heard config names).has field = true then _ else _ : Reader ConfigFields).Takes _ _ _
  rw [has_heard hfresh]
  exact Reader.takes_named hbetween (takes_readField field hlevel hbehind hrest)

/-- Any other member is passed over. -/
theorem member_other {names : List String} {name : String}
    (hname : name ∉ ConfigField.all.map ConfigField.name) :
    member (heard config names) name =
      (do Reader.otherMember; return heard config (names ++ [name])) := by
  have hother : ∀ field : ConfigField, field.name ≠ name := by
    rintro field rfl
    exact hname (List.mem_map_of_mem (mem_all field))
  have hheard : heard config (names ++ [name]) = heard config names := by
    simp [heard, heardValue, hother]
  rw [member, ofName?_other hname, hheard]

/-- **The object of a configuration is read back**, up to fields that are left out. -/
theorem takes_reader {kept : List ConfigField} {members : List (String × List Char)}
    (hkept : kept.Nodup) (hlevel : config.capability.Told level)
    (hmembers : Rearranged (ConfigField.all.map ConfigField.name)
      (kept.map fun field => (field.name, config.fieldText level field)) members)
    (hobject : Object members chars) (hfront : Blank front) :
    reader.Takes (front ++ chars) rest (heard config (members.map Prod.fst)) := by
  have hlearns : Reader.Learns member (fun read => heard config (read.map Prod.fst)) members := by
    refine Reader.learns_rearranged hmembers ?_ ?_ ?_ (fun _ _ => member_other)
    · rw [List.map_map]
      exact hkept.map fun _ _ => name_injective
    · intro field hfield
      obtain ⟨field, -, rfl⟩ := List.mem_map.mp hfield
      exact List.mem_map_of_mem (mem_all field)
    · intro read name value hown hfresh between behind rest hbetween hbehind hrest
      obtain ⟨field, -, hfield⟩ := List.mem_map.mp hown
      cases hfield
      exact takes_member hlevel hfresh hbetween hbehind hrest
  obtain ⟨hobject⟩ := hobject
  have hread := Reader.takes_object rest hlearns hobject
  exact Reader.takes_parts hfront hread

/-- The value of a field that is left out only if it is the default. -/
theorem heardValue_getD {α : Type} {names : List String} {field : ConfigField} {value standard : α}
    (hleft : field.name ∉ names → value = standard) :
    (heardValue names field value).getD standard = value := by
  by_cases hname : field.name ∈ names
  · rw [heardValue, if_pos hname, Option.getD_some]
  · rw [heardValue, if_neg hname, Option.getD_none, hleft hname]

end ConfigFields

/-! ## The round trip -/

namespace LaunchConfig

/-- Words of the same value are equal. -/
theorem word_of_value {a b : UInt64} (h : Value.natural a.toNat = Value.natural b.toNat) : a = b := by
  injection h with h
  exact UInt64.toNat_inj.mp (Int.ofNat.inj h)

/-- Words that may be absent and have the same value are equal. -/
theorem optionalWord_of_value {a b : Option UInt64} (h : optionalWord a = optionalWord b) : a = b := by
  cases a with
  | none =>
    cases b with
    | none => rfl
    | some b => exact nomatch h
  | some a =>
    cases b with
    | none => exact nomatch h
    | some b => rw [word_of_value h]

/-- Levels of the same value are equal. -/
theorem capability_of_value {a b : Capability} (h : a.value = b.value) : a = b := by
  obtain ⟨major, minor⟩ := a
  obtain ⟨major', minor'⟩ := b
  simp only [Capability.value, Value.natural, Value.object.injEq, List.cons.injEq, Prod.mk.injEq,
    Value.integer.injEq, Int.natCast_inj, UInt32.toNat_inj, true_and, and_true] at h
  rw [h.1, h.2]

/-- Policies of the same name are equal. -/
theorem scheduling_of_value {a b : Scheduling} (h : Value.text a.name = Value.text b.name) : a = b := by
  injection h with h
  cases a <;> cases b <;> first | rfl | exact absurd h (by decide)

/-- **What is left out of a document is found by default.** -/
theorem config_heard {config : LaunchConfig} {hostProcessors : UInt64} {names : List String}
    (hleft : ∀ field : ConfigField, field.name ∉ names → config.fieldValue field =
      ({ multiprocessors := hostProcessors } : LaunchConfig).fieldValue field) :
    (ConfigFields.heard config names).config hostProcessors = config := by
  have hthreads : _ → config.threadsPerBlock = 256 := fun h =>
    word_of_value (hleft .threadsPerBlock h)
  have hprocessors : _ → config.multiprocessors = hostProcessors := fun h =>
    word_of_value (hleft .multiprocessors h)
  have hblocks : _ → config.maxBlocks = none := fun h => optionalWord_of_value (hleft .maxBlocks h)
  have hlevel : _ → config.capability = Capability.standard := fun h =>
    capability_of_value (hleft .capability h)
  have hpolicy : _ → config.scheduling = Scheduling.parallel := fun h =>
    scheduling_of_value (hleft .scheduling h)
  have hlimit : _ → config.tempLimit = none := fun h => optionalWord_of_value (hleft .tempLimit h)
  simp only [ConfigFields.config, ConfigFields.heard, ConfigFields.heardValue_getD hthreads,
    ConfigFields.heardValue_getD hprocessors, ConfigFields.heardValue_getD hblocks,
    ConfigFields.heardValue_getD hlevel, ConfigFields.heardValue_getD hpolicy,
    ConfigFields.heardValue_getD hlimit]

/-- A document of a configuration is read back. -/
theorem read_told {config : LaunchConfig} {hostProcessors : UInt64} {chars : List Char}
    (htold : config.Told hostProcessors chars) :
    ∃ fields, ConfigFields.read (String.ofList chars) = .ok fields ∧
      fields.config hostProcessors = config := by
  cases htold with
  | @mk kept level chars front behind members hkept hleft hlevel hmembers hobject hfront hbehind =>
    have hread : ConfigFields.reader.Takes (front ++ chars) behind _ :=
      ConfigFields.takes_reader hkept hlevel hmembers hobject hfront
    refine ⟨_, hread.readText String.toList_ofList hbehind, config_heard fun field hfield => ?_⟩
    refine hleft field fun hkeep => hfield ?_
    have hown := hmembers.mem (List.mem_map_of_mem hkeep)
    exact List.mem_map.mpr ⟨_, hown, rfl⟩

/-- **A configuration that can be launched is read back from each of its documents**, the written one
among them. -/
theorem fromJson_told (config : LaunchConfig) (hostProcessors : UInt64)
    (hvalid : config.validate = .ok ()) :
    fromJson hostProcessors config.toJson = .ok config ∧
      ∀ chars, config.Told hostProcessors chars →
        fromJson hostProcessors (String.ofList chars) = .ok config := by
  have hread : ∀ chars, config.Told hostProcessors chars →
      fromJson hostProcessors (String.ofList chars) = .ok config := by
    intro chars htold
    obtain ⟨fields, hfields, hconfig⟩ := read_told htold
    simp only [fromJson, hfields, hconfig, hvalid]
  refine ⟨?_, hread⟩
  have hwritten := hread _ (config.told_toJson hostProcessors)
  rwa [String.ofList_toList] at hwritten

/-- A configuration of the default width, for an early generation. -/
def narrowed : LaunchConfig where
  multiprocessors := 4
  maxBlocks := some 7
  capability := ⟨2, 1⟩
  scheduling := .reversed

/-- The fields that a document of it keeps; the width is left out. -/
def narrowedFields : List ConfigField :=
  [.scheduling, .capability, .maxBlocks, .tempLimit, .multiprocessors]

/-- The level in this document, with another member. -/
def narrowedLevel : List Char := "\x7b\"minor\":1, \"unit\":null, \"major\":2\x7d".toList

/-- The members of the document, with a remark among them. -/
def narrowedMembers : List (String × List Char) :=
  [("scheduling", "\"reversed\"".toList), ("remark", "-1.5e400".toList),
    ("compute_capability", narrowedLevel), ("max_blocks", ['7']),
    ("temp_storage_limit_bytes", "null".toList), ("multiprocessor_count", ['4'])]

/-- The document. -/
def narrowedText : List Char :=
  "\x7b \"scheduling\": \"reversed\", \"remark\": -1.5e400,\n\"compute_capability\": ".toList ++
    narrowedLevel ++
    ",\n\"max_blocks\": 7, \"temp_storage_limit_bytes\": null, \"multiprocessor_count\": 4\x7d".toList

/-- The level is told with its numbers the other way round. -/
theorem told_narrowedLevel : narrowed.capability.Told narrowedLevel := by
  have hnone : Blank [] := blank_nil
  have hspace : Blank [' '] := blank_singleton rfl
  refine ⟨[("minor", ['1']), ("unit", "null".toList), ("major", ['2'])],
    ⟨[("unit", "null".toList)], ?_, by decide⟩, ?_⟩
  · simpa [Capability.members] using ScalarText.null
  · exact .mk (.some (.mk hnone hnone hnone) (.more hnone (.mk hspace hnone hnone)
      (.more hnone (.mk hspace hnone hnone) (.none hnone))))

/-- The remark is a number, though one too large for double precision. -/
theorem scalar_remark : ScalarText "-1.5e400".toList := by
  have hwhole : Digits ['1'] := ⟨by simp, by simp⟩
  have hfraction : Digits ['5'] := ⟨by simp, by simp⟩
  have hexponent : Digits ['4', '0', '0'] := ⟨by simp, by simp⟩
  exact .number (.negative (.mk (.digits hwhole (by decide)) (.digits hfraction)
    (.digits (.inl rfl) (.inl rfl) hexponent)))

/-- The text is a document of the configuration. -/
theorem told_narrowedText : narrowed.Told 1 narrowedText := by
  have hnone : Blank [] := blank_nil
  have hspace : Blank [' '] := blank_singleton rfl
  have hline : Blank ['\n'] := blank_singleton rfl
  have hkept : narrowedFields.Nodup := by decide
  have hleft : ∀ field, field ∉ narrowedFields →
      narrowed.fieldValue field = ({ multiprocessors := 1 } : LaunchConfig).fieldValue field := by
    intro field hfield
    cases field with
    | threadsPerBlock => rfl
    | _ => exact absurd (by decide) hfield
  have hmembers : Rearranged (ConfigField.all.map ConfigField.name)
      (narrowedFields.map fun field => (field.name, narrowed.fieldText narrowedLevel field))
      narrowedMembers := by
    refine ⟨[("remark", "-1.5e400".toList)], ?_, by decide⟩
    simpa [ConfigField.all, ConfigField.name] using scalar_remark
  have hobject : Object narrowedMembers _ :=
    .mk (.some (.mk hspace hnone hspace) (.more hnone (.mk hspace hnone hspace)
      (.more hnone (.mk hline hnone hspace) (.more hnone (.mk hline hnone hspace)
        (.more hnone (.mk hspace hnone hspace) (.more hnone (.mk hspace hnone hspace)
          (.none hnone)))))))
  have htold : narrowed.Told 1 ([] ++ _ ++ []) :=
    .mk hkept hleft told_narrowedLevel hmembers hobject hnone hnone
  refine cast (congrArg (narrowed.Told 1) ?_) htold
  decide +kernel

/-- It is read back from this document, on a host with a single processor. -/
theorem fromJson_narrowedText :
    narrowed.validate = .ok () ∧ narrowed.Told 1 narrowedText ∧
      fromJson 1 (String.ofList narrowedText) = .ok narrowed :=
  ⟨rfl, told_narrowedText, (fromJson_told narrowed 1 rfl).2 _ told_narrowedText⟩

end LaunchConfig

end BlockMachine
