import GameSetup.Proofs.Input.Grammar
import GameSetup.Proofs.Input.KeyName
import GameSetup.Proofs.Input.Rebinding
import GameSetup.Proofs.Input.Slots

/-!
# Definitions and fixed keys, bound together

Two operations bind several inputs at once: a list of definitions is bound to one name, and each of
the fixed keys to the control with the name of its slot. What either comes to is the law for several
bindings. In a list of definitions no binding gets in the way of another, so their order does not
matter. Two slots can hold the same key, and then the later slot has it.

A definition or a key name that is understood as a key can always be bound, since the keyboard table
has room for whatever can be written. A button of the mouse can be written up to 255, but the table
ends at 32.
-/

namespace GameSetup

variable {α : Type}

/-- A key, or a button of the mouse that the tables have room for. -/
def Input.IsBindable : Input → Prop
  | .key _ => True
  | .mouseButton button => button.toNat < 32
  | .controllerButton _ => False
  | .controllerAxis _ => False
  | .invalid => False

instance : DecidablePred Input.IsBindable
  | .key _ => inferInstanceAs (Decidable True)
  | .mouseButton button => inferInstanceAs (Decidable (button.toNat < 32))
  | .controllerButton _ => inferInstanceAs (Decidable False)
  | .controllerAxis _ => inferInstanceAs (Decidable False)
  | .invalid => inferInstanceAs (Decidable False)

/-- A definition stands for a key of the table only. -/
theorem Input.index_lt_of_ofDefinition {definition : String} {scancode : Scancode}
    (h : ofDefinition definition = .key scancode) : scancode.index < 512 :=
  (Definition.ofDefinition_eq_key_iff.mp h).index_lt

/-- What a definition names has a place if it is a key, or a button that the table has room for. -/
theorem Input.inRange_ofDefinition_iff (definition : String) :
    (ofDefinition definition).InRange ↔ (ofDefinition definition).IsBindable := by
  have hcontroller := Definition.isController_ofDefinition definition
  cases hinput : ofDefinition definition with
  | key scancode => exact iff_of_true (index_lt_of_ofDefinition hinput) trivial
  | mouseButton button => exact Iff.rfl
  | controllerButton button =>
    rw [hinput] at hcontroller
    cases hcontroller
  | controllerAxis axis =>
    rw [hinput] at hcontroller
    cases hcontroller
  | invalid => exact Iff.rfl

namespace BindingMap

variable (map : BindingMap α)

/-- Bindings to one name agree: an input in range that is among them is bound to it. -/
theorem lastName?_map_pair (inputs : List Input) (name : String) (input : Input) :
    map.lastName? (inputs.map (·, name)) input =
      if map.Takes (input, name) ∧ input ∈ inputs then some name else none := by
  induction inputs with
  | nil => exact (if_neg fun h => List.not_mem_nil h.2).symm
  | cons first rest ih =>
    rw [List.map_cons, lastName?_cons, ih]
    by_cases hrest : map.Takes (input, name) ∧ input ∈ rest
    · rw [if_pos hrest, Option.some_or, if_pos ⟨hrest.1, List.mem_cons_of_mem first hrest.2⟩]
    · rw [if_neg hrest, Option.none_or]
      refine if_congr ?_ rfl rfl
      constructor
      · rintro ⟨htakes, rfl⟩
        exact ⟨htakes, List.mem_cons_self⟩
      · rintro ⟨htakes, hmem⟩
        obtain rfl | hmem := List.mem_cons.mp hmem
        · exact ⟨htakes, rfl⟩
        · exact absurd ⟨htakes, hmem⟩ hrest

/-- The bindings to one name that succeed are those of inputs in range, if the name is known. -/
theorem countP_takes_map_pair (inputs : List Input) (name : String) :
    (inputs.map (·, name)).countP (map.Takes ·) =
      if name ∈ map.names then inputs.countP (·.InRange) else 0 := by
  rw [List.countP_map]
  split
  · next hname =>
    exact List.countP_congr fun input _ => by simp [Takes, hname]
  · next hname =>
    exact List.countP_eq_zero.mpr fun input _ => by simp [Takes, hname]

/-- Bindings to one name can be made in any order. -/
theorem bindEach_map_pair_perm {inputs others : List Input} (h : others.Perm inputs)
    (name : String) :
    map.bindEach (others.map (·, name)) = map.bindEach (inputs.map (·, name)) := by
  refine Prod.ext (ext ?_ (funext fun input => ?_)) ?_
  · rw [controls_bindEach, controls_bindEach]
  · simp only [driver_bindEach, lastName?_map_pair, h.mem_iff]
  · rw [bindEach_snd, bindEach_snd, countP_takes_map_pair, countP_takes_map_pair, h.countP_eq]

/-- Nothing can be bound to a name that is not registered. -/
theorem bindEach_map_pair_of_not_mem {name : String} (h : name ∉ map.names)
    (inputs : List Input) : map.bindEach (inputs.map (·, name)) = (map, 0) := by
  refine Prod.ext (ext (map.controls_bindEach _) (funext fun input => ?_)) ?_
  · rw [driver_bindEach, lastName?_map_pair, if_neg fun htakes => h htakes.1.1, Option.none_or]
  · rw [bindEach_snd, countP_takes_map_pair, if_neg h]

end BindingMap

/-- A table becomes another by several bindings, of which so many succeed. -/
structure BindsEach (map : BindingMap α) (pairs : List (Input × String))
    (before after : Bindings α) (count : Nat) : Prop where
  represents : Represents before map
  represents_after : Represents after (map.bindEach pairs).1
  rebound : Rebound before after
  count_eq : count = (map.bindEach pairs).2

namespace BindsEach

variable {map : BindingMap α} {pairs others : List (Input × String)}
  {before after last : Bindings α} {count again : Nat}

/-- An input is bound to what the last of the bindings says that succeeds for it. -/
theorem boundTo?_eq (h : BindsEach map pairs before after count) (input : Input) :
    after.boundTo? input = (map.lastName? pairs input).or (before.boundTo? input) := by
  rw [h.represents_after.boundTo?_eq, map.driver_bindEach, h.represents.boundTo?_eq]

/-- Bindings that come to the same in the map come to the same in the table. -/
theorem unique (h : BindsEach map pairs before after count)
    (hlast : BindsEach map others before last again)
    (hsame : map.bindEach others = map.bindEach pairs) : last = after ∧ again = count := by
  have hrepresents := hlast.represents_after
  rw [hsame] at hrepresents
  refine ⟨hrepresents.eq_of_rebound h.represents_after hlast.rebound h.rebound, ?_⟩
  rw [hlast.count_eq, hsame, h.count_eq]

/-- Once more, the bindings change nothing, and succeed as often. -/
theorem repeated (h : BindsEach map pairs before after count)
    (hlast : BindsEach (map.bindEach pairs).1 pairs after last again) :
    last = after ∧ again = count := by
  have hrepresents := hlast.represents_after
  rw [map.bindEach_bindEach] at hrepresents
  refine ⟨hrepresents.eq_of_rebound h.represents_after hlast.rebound (.refl after), ?_⟩
  rw [hlast.count_eq, map.bindEach_bindEach, h.count_eq]

/-- Bindings that change nothing in the map change nothing in the table. -/
theorem eq_before (h : BindsEach map pairs before after count)
    (hsame : map.bindEach pairs = (map, 0)) : after = before ∧ count = 0 := by
  have hrepresents := h.represents_after
  rw [hsame] at hrepresents
  refine ⟨hrepresents.eq_of_rebound h.represents h.rebound (.refl before), ?_⟩
  rw [h.count_eq, hsame]

end BindsEach

namespace Represents

variable {before : Bindings α} {map : BindingMap α}

/-- To bind definitions is to bind each input to the one name. -/
theorem bindsEach_bindAll (h : Represents before map) (definitions : List String)
    (name : String) :
    BindsEach map ((definitions.map .ofDefinition).map (·, name)) before
      (before.bindAll definitions name).1 (before.bindAll definitions name).2.1 := by
  obtain ⟨hafter, hcount⟩ := h.bindAll definitions name
  rw [List.map_map]
  exact ⟨h, hafter, Rebound.bindAll before definitions name, hcount⟩

/-- To bind the keys is to bind each filled slot's key to the slot's name. -/
theorem bindsEach_bindKeys (h : Represents before map) (keys : Keys) :
    BindsEach map (keys.filled.map fun (slot, scancode) => (.key scancode, slot.name)) before
      (before.bindKeys keys).1 (before.bindKeys keys).2.1 := by
  obtain ⟨hafter, hcount⟩ := h.bindEach keys.filled
  exact ⟨h, hafter, Rebound.bindEach before keys.filled, hcount⟩

end Represents

/-- What binding some definitions to a name comes to. -/
structure BindsAll (before : Bindings α) (definitions : List String) (name : String)
    (after : Bindings α) (count : Nat) : Prop where
  /-- Nothing is bound to a name that is not registered. -/
  unregistered : name ∉ before.controlNames → after = before ∧ count = 0
  /-- Otherwise, what names an input that can be bound counts, each time. -/
  count_eq : name ∈ before.controlNames →
    count = definitions.countP fun definition => (Input.ofDefinition definition).IsBindable
  /-- These inputs are bound to the name, and the others to what they were. -/
  boundTo?_eq : name ∈ before.controlNames → ∀ input,
    after.boundTo? input =
      if input.IsBindable ∧ input ∈ definitions.map .ofDefinition then some name
      else before.boundTo? input
  /-- The controls, their ids and the device used last stay. -/
  rebound : Rebound before after
  /-- The order of the definitions does not matter. -/
  reordered : ∀ others : List String, others.Perm definitions →
    (before.bindAll others name).1 = after ∧ (before.bindAll others name).2.1 = count
  /-- Once more, nothing changes. -/
  repeated : (after.bindAll definitions name).1 = after ∧
    (after.bindAll definitions name).2.1 = count

/-- Definitions are bound as described, whatever map the bindings stand for. -/
theorem Represents.bindsAll {before : Bindings α} {map : BindingMap α}
    (h : Represents before map) (definitions : List String) (name : String) :
    BindsAll before definitions name (before.bindAll definitions name).1
      (before.bindAll definitions name).2.1 := by
  have hall := h.bindsEach_bindAll definitions name
  have hnames := h.controlNames_eq
  refine ⟨fun hname => ?_, fun hname => ?_, fun hname input => ?_, hall.rebound,
    fun others hperm => ?_, ?_⟩
  · rw [hnames] at hname
    exact hall.eq_before (map.bindEach_map_pair_of_not_mem hname _)
  · rw [hnames] at hname
    rw [hall.count_eq, map.bindEach_snd, map.countP_takes_map_pair, if_pos hname, List.countP_map]
    exact List.countP_congr fun definition _ => by simp [Input.inRange_ofDefinition_iff]
  · rw [hnames] at hname
    have htaken : map.Takes (input, name) ∧ input ∈ definitions.map .ofDefinition ↔
        input.IsBindable ∧ input ∈ definitions.map .ofDefinition := by
      refine and_congr_left fun hmem => ?_
      obtain ⟨definition, -, rfl⟩ := List.mem_map.mp hmem
      exact (and_iff_right hname).trans (Input.inRange_ofDefinition_iff definition)
    rw [hall.boundTo?_eq, map.lastName?_map_pair, if_congr htaken rfl rfl]
    split <;> rfl
  · exact hall.unique (h.bindsEach_bindAll others name)
      (map.bindEach_map_pair_perm (hperm.map _) name)
  · exact hall.repeated (hall.represents_after.bindsEach_bindAll definitions name)

/-- A key that a name is to be bound with is bound, if the name is registered. -/
theorem Represents.bind_key {before : Bindings α} {map : BindingMap α}
    (h : Represents before map) {scancode : Scancode} (hindex : scancode.index < 512)
    {name : String} (hname : name ∈ before.controlNames) :
    (before.bind (.key scancode) name).2.1 = true ∧
      (before.bind (.key scancode) name).1.boundTo? (.key scancode) = some name := by
  obtain ⟨hafter, hbound⟩ := h.bind (.key scancode) name
  rw [h.controlNames_eq] at hname
  have htakes : map.Takes (.key scancode, name) := ⟨hname, hindex⟩
  rw [hbound, hafter.boundTo?_eq, map.bind_snd, map.driver_bind]
  exact ⟨decide_eq_true htakes, if_pos ⟨htakes, rfl⟩⟩

/-- Whatever was done to a table, to bind some definitions to a name comes to what they say, in any
order and however often it is done. A definition or a key name that is understood as a key never
fails to be bound to a registered name. -/
theorem Bindings.bindAll_run (steps : List (BindingStep α)) (definitions : List String)
    (name : String) :
    let bindings := (Bindings.empty.run steps).1
    BindsAll bindings definitions name (bindings.bindAll definitions name).1
        (bindings.bindAll definitions name).2.1 ∧
      (∀ definition scancode, Input.ofDefinition definition = .key scancode →
        scancode.index < 512 ∧ (name ∈ bindings.controlNames →
          (bindings.bindDefinition definition name).2.1 = true ∧
            (bindings.bindDefinition definition name).1.boundTo? (.key scancode) = some name)) ∧
      ∀ keyName scancode, KeyName.read keyName = some scancode →
        scancode.index < 512 ∧ (name ∈ bindings.controlNames →
          (bindings.bindKeyName keyName name).2.1 = true ∧
            (bindings.bindKeyName keyName name).1.boundTo? (.key scancode) = some name) := by
  intro bindings
  have h : Represents bindings (BindingMap.empty.run steps).1 := (Represents.empty.run steps).1
  refine ⟨h.bindsAll definitions name, fun definition scancode hread => ?_,
    fun keyName scancode hread => ?_⟩
  · have hindex := Input.index_lt_of_ofDefinition hread
    refine ⟨hindex, fun hname => ?_⟩
    have hdefinition : Definition.read definition = .ok (.key scancode) :=
      (Definition.ofDefinition_eq_iff (by simp)).mp hread
    rw [Bindings.bindDefinition, hdefinition]
    exact h.bind_key hindex hname
  · have hindex := KeyName.index_lt_of_read hread
    refine ⟨hindex, fun hname => ?_⟩
    rw [Bindings.bindKeyName, hread]
    exact h.bind_key hindex hname

example : ((Bindings.empty.run [.add "fire" 1]).1.bindAll
    ["scan 4", "mouse button 31", "mouse button 32", "scan 4"] "fire").2.1 = 3 := by
  decide

namespace Keys

variable (keys : Keys)

/-- The key in the slot of a name, if the name is registered and the table has room for the key. -/
def bindable? (registered : List String) (name : String) : Option Scancode :=
  (keys.get? name).filter fun scancode => name ∈ registered ∧ scancode.index < 512

/-- The name of a slot finds the key in it. -/
theorem get?_name (slot : KeySlot) : keys.get? slot.name = keys.key? slot := by
  rw [get?_eq, KeySlot.ofName?_name, Option.bind_some]

/-- The filled slots by their names. -/
theorem map_filled : keys.filled.map (fun (slot, scancode) => (Input.key scancode, slot.name)) =
    KeySlot.names.filterMap fun name => (keys.get? name).map (.key ·, name) := by
  rw [filled, KeySlot.names, List.map_filterMap, List.filterMap_map]
  refine List.filterMap_congr fun slot _ => ?_
  rw [Function.comp_apply, get?_name, Option.map_map]
  rfl

end Keys

namespace BindingMap

variable (map : BindingMap α) (keys : Keys)

/-- A key is bound to the name of the last slot that holds it and can be bound. -/
theorem lastName?_filled (scancode : Scancode) :
    map.lastName? (keys.filled.map fun (slot, scancode) => (.key scancode, slot.name))
        (.key scancode) =
      (KeySlot.names.filter fun name =>
        keys.bindable? map.names name = some scancode).getLast? := by
  rw [lastName?, keys.map_filled, List.filter_filterMap, List.map_filterMap,
    ← List.filterMap_eq_filter]
  refine congrArg List.getLast? (List.filterMap_congr fun name _ => ?_)
  rw [Option.guard, Keys.bindable?]
  cases keys.get? name with
  | none => rfl
  | some found =>
    have hkept : (some found).filter
          (fun scancode => name ∈ map.names ∧ scancode.index < 512) = some scancode ↔
        map.Takes (.key found, name) ∧ Input.key found = .key scancode := by
      rw [Option.filter_eq_some_iff, Option.some.injEq, Input.key.injEq, decide_eq_true_iff,
        and_comm]
      exact and_congr_left fun hsame => hsame ▸ Iff.rfl
    rw [Option.map_some, Option.filter_some]
    simp only [decide_eq_true_iff, hkept]
    split <;> rfl

/-- The keys are bound to no other kind of input. -/
theorem lastName?_filled_of_ne {input : Input} (h : ∀ scancode, input ≠ .key scancode) :
    map.lastName? (keys.filled.map fun (slot, scancode) => (.key scancode, slot.name)) input =
      none := by
  rw [lastName?, keys.map_filled, List.filter_filterMap, List.map_filterMap,
    List.getLast?_eq_none_iff, List.filterMap_eq_nil_iff]
  intro name _
  cases keys.get? name with
  | none => rfl
  | some found => simp [(h found).symm]

/-- The bindings that succeed are those of slots that can be bound. -/
theorem countP_takes_filled :
    (keys.filled.map fun (slot, scancode) => (.key scancode, slot.name)).countP (map.Takes ·) =
      KeySlot.names.countP fun name => (keys.bindable? map.names name).isSome := by
  rw [keys.map_filled, List.countP_filterMap]
  refine List.countP_congr fun name _ => ?_
  rw [Keys.bindable?, Option.isSome_filter]
  cases keys.get? name with
  | none => exact Iff.rfl
  | some found => exact Iff.rfl

end BindingMap

/-- What binding the fixed keys comes to. -/
structure BindsKeys (before : Bindings α) (keys : Keys) (after : Bindings α) (count : Nat) :
    Prop where
  /-- The slots that are filled and can be bound count. -/
  count_eq : count =
    KeySlot.names.countP fun name => (keys.bindable? before.controlNames name).isSome
  /-- A key is bound to the last of these slots that holds it, or else to what it was. -/
  boundTo?_key : ∀ scancode, after.boundTo? (.key scancode) =
    (KeySlot.names.filter fun name =>
      keys.bindable? before.controlNames name = some scancode).getLast?.or
        (before.boundTo? (.key scancode))
  /-- What is not a key stays bound to what it was. -/
  boundTo?_of_ne : ∀ input, (∀ scancode, input ≠ .key scancode) →
    after.boundTo? input = before.boundTo? input
  /-- The controls, their ids and the device used last stay. -/
  rebound : Rebound before after
  /-- Once more, nothing changes. -/
  repeated : (after.bindKeys keys).1 = after ∧ (after.bindKeys keys).2.1 = count

/-- Whatever was done to a table, to bind the fixed keys binds each key to the control of the last
slot that holds it, among the slots whose key the table has room for and whose name is registered.
All other inputs keep what they drive. -/
theorem Bindings.bindKeys_run (steps : List (BindingStep α)) (keys : Keys) :
    let bindings := (Bindings.empty.run steps).1
    BindsKeys bindings keys (bindings.bindKeys keys).1 (bindings.bindKeys keys).2.1 := by
  intro bindings
  have h : Represents bindings (BindingMap.empty.run steps).1 := (Represents.empty.run steps).1
  have hall := h.bindsEach_bindKeys keys
  refine ⟨?_, fun scancode => ?_, fun input hinput => ?_, hall.rebound,
    hall.repeated (hall.represents_after.bindsEach_bindKeys keys)⟩
  · rw [hall.count_eq, BindingMap.bindEach_snd, BindingMap.countP_takes_filled, h.controlNames_eq]
  · rw [hall.boundTo?_eq, BindingMap.lastName?_filled, h.controlNames_eq]
  · rw [hall.boundTo?_eq, BindingMap.lastName?_filled_of_ne _ _ hinput, Option.none_or]

example : ((Bindings.empty.run [.add "left" 1, .add "b1" 2]).1.bindKeys
    ⟨fun slot => if slot = .up then none else some ⟨4⟩⟩).2.1 = 2 := by
  decide

end GameSetup
