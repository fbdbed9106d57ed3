import ComponentCompiler.Component.Decode

/-!
# The schema of documents

Each part of a document has a shape. The shape of a value fixes what the value itself has to be, and
which parts of it have shapes of their own. A value fits its shape if this holds all the way down. If
it does not, the first offence on some way down is to blame, with the place where it stands.

## Main definitions

* `Shape`, `Part` — what a value has to be, and a value inside of another one
* `Shape.fault?`, `Shape.parts` — what is wrong with a value itself, and the parts it has
* `Fits` — a value has its shape all the way down
* `Blames` — an error tells an offence and where it stands

## Main results

* `Fits.not_blames` — there is nothing to blame in a value that fits
-/

namespace ComponentCompiler

/-- What a value in a document has to be. -/
inductive Shape where
  | component
  | componentMark
  | node
  | nodeMark
  /-- An object with members of any kind. -/
  | anyObject
  | text
  /-- A string, or nothing. -/
  | optionalText
  | importList
  | importSpec
  | propList
  /-- The type of a prop: a string or nothing, also as a member of an object. -/
  | propType
  | hooks
  /-- One hook, or several. -/
  | hookSequence
  | hook
  | nodeList
  | bindings
  | binding
  | bindingCode
  | bindingArguments
  | annotations
deriving DecidableEq, Repr

/-- A value inside of another one: the step that leads there, and what it has to be. -/
structure Part where
  step : Step
  shape : Shape
  value : Json

/-! ### What is wrong with a value itself -/

/-- What is wrong with a value that has to be an object. -/
def objectFault? : Json → Option DocumentFault
  | .object _ => none
  | value => some (.object value.typeName)

/-- What is wrong with a value that has to be a string. -/
def stringFault? : Json → Option DocumentFault
  | .string _ => none
  | value => some (.string value.typeName)

/-- What is wrong with a value that has to be a string or absent. -/
def optionalStringFault? : Json → Option DocumentFault
  | .null => none
  | value => stringFault? value

/-- What is wrong with a mark, which may be absent. -/
def markFault? (mark : String) (fault : Json → DocumentFault) : Json → Option DocumentFault
  | .null => none
  | .string found => if found = mark then none else some (fault (.string found))
  | found => some (fault found)

/-- Whether a value stands for a list of hooks: an object is a list of one, and a string the list of
its characters. -/
def Json.isSequence : Json → Bool
  | .object _ | .array _ | .string _ => true
  | _ => false

/-- Whether a value stands for no mount hooks. An empty object is a hook all the same. -/
def Json.isNoMount : Json → Bool
  | .object _ => false
  | value => value.isFalsy

namespace Shape

/-- What is wrong with a value itself, whatever its parts are. -/
def fault? : Shape → Json → Option DocumentFault
  | .componentMark, value => markFault? ComponentCompiler.componentMark .componentMark value
  | .nodeMark, value => markFault? ComponentCompiler.nodeMark .nodeMark value
  | .node, .object members => if (lookup? "name" members).isSome then none else some .nodeName
  | .text, value => stringFault? value
  | .optionalText, value => optionalStringFault? value
  | .importList, .array _ => none
  | .importList, _ => some .importList
  | .propList, .array _ => none
  | .propType, .object _ => none
  | .propType, value => optionalStringFault? value
  | .hookSequence, _ => none
  | .nodeList, .array _ => none
  | .nodeList, _ => some .nodeList
  | .bindingCode, .null | .bindingCode, .string _ => none
  | .bindingCode, _ => some .bindingCode
  | .bindingArguments, .null => none
  | .bindingArguments, .array items =>
    if items.all (·.string?.isSome) then none else some .bindingArguments
  | .bindingArguments, _ => some .bindingArguments
  | _, value => objectFault? value

/-! ### The parts of a value -/

/-- The member with the given name, unless it counts as absent. -/
def member (shape : Shape) (absent : Json → Bool) (key : String) (members : List (String × Json)) :
    List Part :=
  match lookup? key members with
  | none => []
  | some value => if absent value then [] else [⟨.key key, shape, value⟩]

/-- The members that do not count as absent. -/
def eachMember (shape : Shape) (absent : Json → Bool) : List (String × Json) → List Part
  | [] => []
  | (key, value) :: rest =>
    if absent value then eachMember shape absent rest
    else ⟨.key key, shape, value⟩ :: eachMember shape absent rest

/-- The items of a list, where `i` items came before. -/
def eachItem (shape : Shape) (i : Nat) : List Json → List Part
  | [] => []
  | item :: rest => ⟨.index i, shape, item⟩ :: eachItem shape (i + 1) rest

/-- A member that counts as soon as it is there. -/
def given (shape : Shape) (key : String) (members : List (String × Json)) : List Part :=
  shape.member (fun _ => false) key members

/-- A section, which counts as absent if it is empty, zero or false. -/
def sectionPart (shape : Shape) (key : String) (members : List (String × Json)) : List Part :=
  shape.member Json.isFalsy key members

/-- The parts of an object. -/
def partsOfMembers (members : List (String × Json)) : Shape → List Part
  | .component =>
    componentMark.given "@type" members ++ text.given "name" members ++
      importList.sectionPart "imports" members ++ anyObject.sectionPart "state" members ++
      propList.sectionPart "props" members ++ hooks.sectionPart "hooks" members ++
      nodeList.sectionPart "children" members ++ optionalText.given "style" members ++
      optionalText.given "propsTypeRef" members ++ anyObject.sectionPart "meta" members
  | .node =>
    nodeMark.given "@type" members ++ anyObject.sectionPart "properties" members ++
      bindings.sectionPart "bindings" members ++ annotations.sectionPart "meta" members ++
      anyObject.sectionPart "scope" members ++ text.given "name" members ++
      nodeList.sectionPart "children" members
  | .importSpec =>
    -- A path that is left out is blamed like one that is absent.
    anyObject.sectionPart "imports" members ++
      [⟨.key "path", .text, (lookup? "path" members).getD .null⟩]
  | .propList => propType.eachMember (fun _ => false) members
  | .propType => optionalText.given "type" members
  | .hooks =>
    hook.member Json.isNull "onInit" members ++
      hookSequence.member Json.isNoMount "onMount" members ++
      hookSequence.member Json.isNull "onUpdate" members
  | .hook => text.given "code" members ++ optionalText.given "deps" members
  | .hookSequence => hook.eachItem 0 [.object members]
  | .bindings => binding.eachMember Json.isNull members
  | .binding =>
    bindingCode.given "code" members ++ bindingArguments.given "arguments" members ++
      text.sectionPart "type" members
  | .annotations => node.member Json.isNull alternativeKey members
  | _ => []

/-- The parts of a list. -/
def partsOfItems (items : List Json) : Shape → List Part
  | .importList => importSpec.eachItem 0 items
  | .propList => text.eachItem 0 items
  | .hookSequence => hook.eachItem 0 items
  | .nodeList => node.eachItem 0 items
  | _ => []

/-- The parts of a value that have shapes of their own. -/
def parts : Shape → Json → List Part
  | shape, .object members => partsOfMembers members shape
  | shape, .array items => partsOfItems items shape
  | .hookSequence, .string letters =>
    hook.eachItem 0 (letters.toList.map fun c => .string (String.ofList [c]))
  | _, _ => []

end Shape

/-! ### Fitting and blaming -/

/-- A value has its shape all the way down. -/
inductive Fits : Shape → Json → Prop
  | intro {shape : Shape} {value : Json} (sound : shape.fault? value = none)
      (listed : shape = .hookSequence → value.isSequence = true)
      (inside : ∀ part ∈ shape.parts value, Fits part.shape part.value) : Fits shape value

/-- An error tells what is wrong with a value at a place, or with a part of it further inside, and at
which place this is. -/
inductive Blames : Shape → Place → Json → DocumentError → Prop
  | fault {shape : Shape} {place : Place} {value : Json} {fault : DocumentFault}
      (found : shape.fault? value = some fault) : Blames shape place value (.invalid fault place)
  | notASequence {place : Place} {value : Json} (unlisted : value.isSequence = false) :
      Blames .hookSequence place value (.notASequence place)
  | inside {shape : Shape} {place : Place} {value : Json} {part : Part} {error : DocumentError}
      (member : part ∈ shape.parts value)
      (blames : Blames part.shape (part.step :: place) part.value error) :
      Blames shape place value error

variable {shape : Shape} {place : Place} {value : Json} {error : DocumentError}

/-- There is nothing to blame in a value that fits. -/
theorem Fits.not_blames (fits : Fits shape value) : ¬ Blames shape place value error := by
  intro blames
  induction blames with
  | fault found =>
    obtain ⟨sound, -, -⟩ := fits
    rw [sound] at found
    cases found
  | notASequence unlisted =>
    obtain ⟨-, listed, -⟩ := fits
    rw [listed rfl] at unlisted
    cases unlisted
  | inside member _ ih =>
    obtain ⟨-, -, inside⟩ := fits
    exact ih (inside _ member)

/-- A value stands at a place of a document, where it has to have a shape. -/
inductive Located (document : Json) : Place → Shape → Json → Prop
  | document : Located document .root .component document
  | part {place : Place} {shape : Shape} {value : Json} {part : Part}
      (outer : Located document place shape value) (member : part ∈ shape.parts value) :
      Located document (part.step :: place) part.shape part.value

/-- What is blamed stands in the document at the place that is told. -/
theorem Blames.exists_located {document : Json} (blames : Blames shape place value error)
    (located : Located document place shape value) :
    ∃ inner shape value, Located document inner shape value ∧
      ((∃ fault, shape.fault? value = some fault ∧ error = .invalid fault inner) ∨
        shape = .hookSequence ∧ value.isSequence = false ∧ error = .notASequence inner) := by
  induction blames with
  | fault found => exact ⟨_, _, _, located, .inl ⟨_, found, rfl⟩⟩
  | notASequence unlisted => exact ⟨_, _, _, located, .inr ⟨rfl, unlisted, rfl⟩⟩
  | inside member _ ih => exact ih (.part located member)

/-! ### Where the hooks stand -/

namespace Shape

variable {part : Part} {absent : Json → Bool} {key : String} {members : List (String × Json)}

theorem of_mem_member (listed : part ∈ shape.member absent key members) :
    part.step = .key key ∧ part.shape = shape := by
  unfold member at listed
  split at listed
  · cases listed
  · split at listed
    · cases listed
    · obtain rfl := List.mem_singleton.1 listed
      exact ⟨rfl, rfl⟩

theorem shape_of_mem_eachMember (listed : part ∈ shape.eachMember absent members) :
    part.shape = shape := by
  induction members with
  | nil => cases listed
  | cons member rest ih =>
    obtain ⟨key, value⟩ := member
    rw [eachMember] at listed
    split at listed
    · exact ih listed
    · rcases List.mem_cons.1 listed with rfl | later
      · rfl
      · exact ih later

theorem shape_of_mem_eachItem {items : List Json} {i : Nat} (listed : part ∈ shape.eachItem i items) :
    part.shape = shape := by
  induction items generalizing i with
  | nil => cases listed
  | cons item rest ih =>
    rcases List.mem_cons.1 listed with rfl | later
    · rfl
    · exact ih later

/-- Hooks stand in a document, and several hooks stand in hooks, under two names. -/
theorem of_mem_parts {part : Part} (listed : part ∈ shape.parts value) :
    (part.shape = .hookSequence →
      shape = .hooks ∧ (part.step = .key "onMount" ∨ part.step = .key "onUpdate")) ∧
    (part.shape = .hooks → shape = .component ∧ part.step = .key "hooks") ∧
    part.shape ≠ .component := by
  unfold parts at listed
  split at listed
  · cases shape <;>
      simp only [partsOfMembers, List.mem_append, given, sectionPart] at listed <;>
      grind [→ of_mem_member, → shape_of_mem_eachMember, → shape_of_mem_eachItem]
  · cases shape <;>
      simp only [partsOfItems] at listed <;>
      grind [→ of_mem_member, → shape_of_mem_eachMember, → shape_of_mem_eachItem]
  · grind [→ shape_of_mem_eachItem]
  · cases listed

end Shape

variable {document : Json}

theorem Located.place_of_component (located : Located document place .component value) :
    place = .root := by
  generalize whole : Shape.component = shape at located
  cases located with
  | document => rfl
  | part outer member => exact absurd whole.symm (Shape.of_mem_parts member).2.2

theorem Located.place_of_hooks (located : Located document place .hooks value) :
    place = [.key "hooks"] := by
  generalize whole : Shape.hooks = shape at located
  cases located with
  | document => cases whole
  | part outer member =>
    obtain ⟨rfl, step⟩ := (Shape.of_mem_parts member).2.1 whole.symm
    rw [step, outer.place_of_component]
    rfl

theorem Located.place_of_hookSequence (located : Located document place .hookSequence value) :
    place = [.key "onMount", .key "hooks"] ∨ place = [.key "onUpdate", .key "hooks"] := by
  generalize whole : Shape.hookSequence = shape at located
  cases located with
  | document => cases whole
  | part outer member =>
    obtain ⟨rfl, step⟩ := (Shape.of_mem_parts member).1 whole.symm
    rw [outer.place_of_hooks]
    exact step.imp (congrArg (· :: _)) (congrArg (· :: _))

end ComponentCompiler
