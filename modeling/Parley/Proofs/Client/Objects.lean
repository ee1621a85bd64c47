import Mathlib.Data.List.Basic
import Mathlib.Data.List.Induction
import Parley.Proofs.Client.Reading

/-! What a client makes of the events that it is told of.
Its picture of the objects holds, for every attribute, the value that it was told last. -/

namespace Parley

def ObjectEvent.value? (oid : Oid) (name : String) : ObjectEvent → Option Value
  | .attributeChanged target changed value =>
    if target = oid ∧ changed = name then some value else none
  | .message _ _ _ => none

def Message.value? (oid : Oid) (name : String) : Message → Option Value
  | .event change => change.value? oid name
  | _ => none

namespace Client

theorem lookup_bindKey [DecidableEq α] (key other : α) (value : β) (entries : List (α × β)) :
    (bindKey key value entries).lookup other =
      if other = key then some value else entries.lookup other := by
  induction entries with
  | nil =>
    rw [bindKey, List.lookup_cons]
    by_cases here : other = key
    · simp [here]
    · simp [here, beq_false_of_ne here]
  | cons first rest ih =>
    rw [bindKey]
    by_cases same : first.1 = key
    · rw [if_pos same, List.lookup_cons, List.lookup_cons, same]
      by_cases here : other = key
      · simp [here]
      · simp [here, beq_false_of_ne here]
    · rw [if_neg same, List.lookup_cons, List.lookup_cons, ih]
      by_cases there : other = first.1
      · simp [there, same]
      · rw [beq_false_of_ne there]

theorem ObjectTable.attribute?_apply (objects : ObjectTable) (event : ObjectEvent) (oid : Oid)
    (name : String) :
    (objects.apply event).attribute? oid name =
      (event.value? oid name).or (objects.attribute? oid name) := by
  cases event with
  | message target changed args => rfl
  | attributeChanged target changed value =>
    rw [apply, attribute?, attribute?, lookup_bindKey, ObjectEvent.value?]
    by_cases here : oid = target
    · subst here
      simp only [↓reduceIte, Option.bind_eq_bind, Option.bind_some, true_and]
      rw [lookup_bindKey]
      by_cases same : name = changed
      · simp [same]
      · rw [if_neg same, if_neg (Ne.symm same), Option.none_or]
        cases objects.lookup oid <;> rfl
    · have apart : ¬ (target = oid ∧ changed = name) := fun both => here both.1.symm
      rw [if_neg here, if_neg apart, Option.none_or]

namespace Command

def value? (oid : Oid) (name : String) : Command ν → Option Value
  | .apply event => event.value? oid name
  | _ => none

def note (objects : ObjectTable) : Command ν → ObjectTable
  | .apply event => objects.apply event
  | _ => objects

theorem attribute?_note (objects : ObjectTable) (command : Command ν) (oid : Oid) (name : String) :
    (command.note objects).attribute? oid name =
      (command.value? oid name).or (objects.attribute? oid name) := by
  cases command with
  | apply event => exact objects.attribute?_apply event oid name
  | _ => rfl

end Command

def depicted (commands : List (Command ν)) : ObjectTable :=
  commands.foldl (fun objects command => command.note objects) []

@[simp] theorem depicted_append (commands : List (Command ν)) (command : Command ν) :
    depicted (commands ++ [command]) = command.note (depicted commands) := List.foldl_append

theorem Context.objects_perform (code : Code κ ν ω) (context : Context κ ν ω)
    (command : Command ν) :
    (context.perform code command).2.objects = command.note context.objects := by
  cases command with
  | apply event => cases event <;> rfl
  | _ => rfl

theorem objects_write (client : Client κ ν ω) (answers : List Connection.WriteAnswer) :
    (client.write answers).2.queue.context.objects = client.queue.context.objects := by
  unfold write
  split
  · rfl
  · dsimp only
    split <;> rfl

theorem attribute?_depicted (commands : List (Command ν)) (oid : Oid) (name : String) :
    (depicted commands).attribute? oid name =
      (commands.filterMap (·.value? oid name)).getLast? := by
  induction commands using List.reverseRecOn with
  | nil => rfl
  | append_singleton commands command ih =>
    rw [depicted_append, Command.attribute?_note, ih, List.filterMap_append]
    cases told : command.value? oid name <;> simp [told]

theorem filterMap_value?_command? (messages : List Message) (oid : Oid) (name : String) :
    (messages.filterMap (command? (ν := ν))).filterMap (·.value? oid name) =
      messages.filterMap (·.value? oid name) := by
  rw [List.filterMap_filterMap]
  refine List.filterMap_congr fun message _ => ?_
  cases message <;> rfl

theorem filterMap_value?_isNews (commands : List (Command ν)) (oid : Oid) (name : String) :
    (commands.filter (·.isNews)).filterMap (·.value? oid name) =
      commands.filterMap (·.value? oid name) := by
  rw [List.filterMap_filter]
  refine List.filterMap_congr fun command _ => ?_
  cases command <;> rfl

end Client

end Parley
