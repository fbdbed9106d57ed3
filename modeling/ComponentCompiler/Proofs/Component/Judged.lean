import ComponentCompiler.Failure
import ComponentCompiler.Proofs.Component.Decoded
import ComponentCompiler.Proofs.Component.Schema

/-!
# Reading keeps to the schema

Each function of the reader has a shape: it reads the values that fit the shape, and about any other
value it says what is wrong and where. A function that reads several parts one after the other does so
if each of its readings does.

## Main definitions

* `Decoded.Judges` — a result says whether a value fits its shape, and whom to blame if not
* `Decoded.Checks` — the same for some of the parts of a value

## Main results

* `Decoded.Checks.bind` — parts that are read one after the other
* `judges_node`, `judges_component` — what the reader says about a node and about a document
* `loadComponent_judges` — a document is read if and only if it fits the schema, and otherwise the
  failure names an offence and its place
-/

namespace ComponentCompiler

variable {α β : Type} {shape : Shape} {place : Place} {value : Json} {members : List (String × Json)}

namespace Decoded

/-- A value that is read fits its shape, and the error about any other one is to the point. -/
def Judges (result : Decoded α) (shape : Shape) (place : Place) (value : Json) : Prop :=
  match result with
  | .ok _ => Fits shape value
  | .error error => Blames shape place value error

/-- Parts that are read fit their shapes, and an error is to the point about one of them. -/
def Checks (result : Decoded α) (place : Place) (parts : List Part) : Prop :=
  match result with
  | .ok _ => ∀ part ∈ parts, Fits part.shape part.value
  | .error error => ∃ part ∈ parts, Blames part.shape (part.step :: place) part.value error

variable {first : Decoded α} {next : α → Decoded β} {parts others : List Part}

theorem Checks.ok (result : α) (place : Place) : Checks (.ok result) place [] := by
  simp [Checks]

/-- Parts that are read one after the other. -/
theorem Checks.bind (checked : Checks first place parts)
    (onward : ∀ read, Checks (next read) place others) :
    Checks (first >>= next) place (parts ++ others) := by
  cases first with
  | error fault =>
    obtain ⟨part, member, blames⟩ := checked
    exact ⟨part, List.mem_append_left _ member, blames⟩
  | ok read =>
    have rest := onward read
    show Checks (next read) place (parts ++ others)
    cases result : next read with
    | error fault =>
      rw [result] at rest
      obtain ⟨part, member, blames⟩ := rest
      exact ⟨part, List.mem_append_right _ member, blames⟩
    | ok last =>
      rw [result] at rest
      exact List.forall_mem_append.2 ⟨checked, rest⟩

/-- The order in which the parts are read does not matter. -/
theorem Checks.congr (checked : Checks first place parts) (same : ∀ part, part ∈ parts ↔ part ∈ others) :
    Checks first place others := by
  cases first with
  | error fault =>
    obtain ⟨part, member, blames⟩ := checked
    exact ⟨part, (same part).1 member, blames⟩
  | ok read => exact fun part member => checked part ((same part).2 member)

/-- A single part. -/
theorem Judges.checks (part : Part)
    (judged : Judges first part.shape (part.step :: place) part.value) : Checks first place [part] := by
  cases first with
  | error fault => exact ⟨part, List.mem_singleton_self part, judged⟩
  | ok read =>
    rintro other member
    obtain rfl := List.mem_singleton.1 member
    exact judged

theorem Judges.map (judged : Judges first shape place value) (change : α → β) :
    Judges (first.map change) shape place value := by
  cases first with
  | error fault => exact judged
  | ok read => exact judged

/-- A value is judged by its parts if nothing is wrong with the value itself. -/
theorem Checks.judges (checked : Checks first place (shape.parts value))
    (sound : shape.fault? value = none)
    (listed : shape = .hookSequence → value.isSequence = true) : Judges first shape place value := by
  cases first with
  | error fault =>
    obtain ⟨part, member, blames⟩ := checked
    exact .inside member blames
  | ok read => exact .intro sound listed checked

/-- Putting the result together checks nothing more. -/
theorem Checks.finish (checked : Checks first place parts) (assemble : α → β) :
    Checks (first >>= fun read => .ok (assemble read)) place parts := by
  have done := checked.bind fun read => Checks.ok (assemble read) place
  rwa [List.append_nil] at done

end Decoded

open Decoded

/-! ### Single values -/

theorem judges_refuseValue {fault : DocumentFault} (found : shape.fault? value = some fault) :
    Judges (refuseValue fault place : Decoded α) shape place value :=
  .fault found

theorem judges_expectObject : Judges (expectObject place value) .anyObject place value := by
  cases value with
  | object members => exact (Checks.ok members place).judges rfl (by simp)
  | _ => exact judges_refuseValue rfl

theorem judges_expectString : Judges (expectString place value) .text place value := by
  cases value with
  | string text => exact (Checks.ok text place).judges rfl (by simp)
  | _ => exact judges_refuseValue rfl

theorem judges_optionalString : Judges (optionalString place value) .optionalText place value := by
  cases value with
  | null => exact (Checks.ok none place).judges rfl (by simp)
  | string text => exact (Checks.ok (some text) place).judges rfl (by simp)
  | _ => exact judges_refuseValue rfl

/-- A reader that expects an object and then reads its parts. -/
theorem judges_object {read : List (String × Json) → Decoded α}
    (faulty : ∀ value, shape.fault? value = objectFault? value)
    (checked : ∀ members, Checks (read members) place (shape.partsOfMembers members))
    (single : shape ≠ .hookSequence) :
    Judges (expectObject place value >>= read) shape place value := by
  cases value with
  | object members =>
    exact (checked members).judges (faulty _) fun same => absurd same single
  | _ => exact judges_refuseValue (faulty _)

/-! ### Members -/

theorem Json.isNull_iff : value.isNull = true ↔ value = .null := by
  cases value <;> simp [Json.isNull]

/-- A member is judged on its own; nothing is found wrong if it is left out or counts as absent. -/
theorem checks_of_lookup {result : Decoded α} {absent : Json → Bool} {key : String}
    (left : lookup? key members = none → ∃ read, result = .ok read)
    (skipped : ∀ value, lookup? key members = some value → absent value = true →
      ∃ read, result = .ok read)
    (judged : ∀ value, lookup? key members = some value → absent value = false →
      Judges result shape (place.key key) value) :
    Checks result place (shape.member absent key members) := by
  unfold Shape.member
  cases found : lookup? key members with
  | none =>
    obtain ⟨read, rfl⟩ := left found
    exact .ok read place
  | some value =>
    dsimp only
    split
    · next skip =>
      obtain ⟨read, rfl⟩ := skipped value found skip
      exact .ok read place
    · next kept => exact Judges.checks ⟨.key key, shape, value⟩ (judged value found (by simpa using kept))

theorem checks_member (read : Json → Decoded α) {absent : Json → Bool} {default : Json} (key : String)
    (left : ∃ result, read default = .ok result)
    (skipped : ∀ value, absent value = true → ∃ result, read value = .ok result)
    (judged : ∀ value, absent value = false → Judges (read value) shape (place.key key) value) :
    Checks (read (memberOr default key members)) place (shape.member absent key members) := by
  refine checks_of_lookup ?_ ?_ ?_
  · intro free
    rwa [memberOr, free]
  · intro value found skip
    simpa [memberOr, found] using skipped value skip
  · intro value found kept
    simpa [memberOr, found] using judged value kept

theorem checks_given (read : Json → Decoded α) {default : Json} (key : String)
    (left : ∃ result, read default = .ok result)
    (judged : ∀ value, Judges (read value) shape (place.key key) value) :
    Checks (read (memberOr default key members)) place (shape.given key members) :=
  checks_member read key left (by simp) fun value _ => judged value

theorem checks_section (read : Json → Decoded α) {empty : Json} (key : String)
    (left : ∃ result, read empty = .ok result)
    (judged : ∀ value, Judges (read value) shape (place.key key) value) :
    Checks (read (sectionOr empty key members)) place (shape.sectionPart key members) := by
  refine checks_member (fun value => read (if value.isFalsy then empty else value)) key left ?_ ?_
  · intro value skip
    simpa [skip] using left
  · intro value kept
    simpa [kept] using judged value

theorem checks_objectSection (key : String) :
    Checks (objectSection place key members) place (Shape.anyObject.sectionPart key members) :=
  checks_section (expectObject (place.key key)) key ⟨[], rfl⟩ fun _ => judges_expectObject

theorem checks_checkMark {mark : String} {fault : Json → DocumentFault}
    (faulty : ∀ value, shape.fault? value = markFault? mark fault value)
    (single : ∀ value, shape.parts value = []) (unlisted : shape ≠ .hookSequence) :
    Checks (checkMark mark fault place members) place (shape.given "@type" members) := by
  have sound {value : Json} (fine : markFault? mark fault value = none) :
      Judges (.ok ()) shape (place.key "@type") value := by
    refine Checks.judges ?_ ((faulty value).trans fine) fun same => absurd same unlisted
    rw [single]
    exact .ok () _
  refine checks_of_lookup (fun free => ⟨(), by rw [checkMark, free]⟩) (by simp) ?_
  intro value found _
  rw [checkMark, found]
  cases value with
  | null => exact sound rfl
  | string text =>
    dsimp only
    split
    · next same => exact sound (if_pos same)
    · next other => exact judges_refuseValue ((faulty _).trans (if_neg other))
  | _ => exact judges_refuseValue (faulty _)

/-! ### Bindings -/

theorem namesOf?_isSome (items : List Json) :
    (namesOf? items).isSome = items.all (·.string?.isSome) := by
  induction items with
  | nil => rfl
  | cons item rest ih => cases item <;> simp [namesOf?, Json.string?, ih]

theorem checks_decodeBindingCode :
    Checks (decodeBindingCode place members) place (Shape.bindingCode.given "code" members) := by
  refine checks_of_lookup (fun free => ⟨none, by rw [decodeBindingCode, memberOr, free]; rfl⟩)
    (by simp) ?_
  intro value found _
  rw [decodeBindingCode, memberOr, found]
  cases value with
  | null => exact (Checks.ok none _).judges rfl (by simp)
  | string code => exact (Checks.ok (some code) _).judges rfl (by simp)
  | _ => exact judges_refuseValue rfl

theorem checks_decodeArguments :
    Checks (decodeArguments place members) place
      (Shape.bindingArguments.given "arguments" members) := by
  refine checks_of_lookup (fun free => ⟨none, by rw [decodeArguments, memberOr, free]; rfl⟩)
    (by simp) ?_
  intro value found _
  rw [decodeArguments, memberOr, found]
  cases value with
  | null => exact (Checks.ok none _).judges rfl (by simp)
  | array items =>
    have strings := namesOf?_isSome items
    dsimp only [Option.getD_some]
    cases named : namesOf? items with
    | some names =>
      refine (Checks.ok (some names) _).judges ?_ (by simp)
      simp [Shape.fault?, ← strings, named]
    | none =>
      refine judges_refuseValue ?_
      simp [Shape.fault?, ← strings, named]
  | _ => exact judges_refuseValue rfl

theorem judges_binding : Judges (Binding.decode place value) .binding place value := by
  refine judges_object (fun _ => rfl) (fun members => ?_) (by simp)
  refine (checks_decodeBindingCode.bind fun code => checks_decodeArguments.bind fun arguments =>
    (checks_section (expectString (place.key "type")) "type" ⟨"single", rfl⟩
      fun _ => judges_expectString).finish _).congr fun part => ?_
  simp only [Shape.partsOfMembers, List.mem_append, or_assoc]

theorem checks_decodeBindings :
    Checks (decodeBindings place members) place (Shape.binding.eachMember Json.isNull members) := by
  induction members with
  | nil => exact .ok [] place
  | cons member rest ih =>
    obtain ⟨key, value⟩ := member
    rw [decodeBindings, Shape.eachMember]
    split
    · exact ih
    · exact (Judges.checks ⟨.key key, .binding, value⟩ judges_binding).bind
        fun binding => ih.finish _

/-- The bindings of a node are read after the object that holds them. -/
theorem checks_bindings {read : List (String × Binding) → Decoded α} {others : List Part}
    (onward : ∀ bindings, Checks (read bindings) place others) :
    Checks (do
        let bindingMembers ← objectSection place "bindings" members
        let bindings ← decodeBindings (place.key "bindings") bindingMembers
        read bindings) place
      (Shape.bindings.sectionPart "bindings" members ++ others) := by
  rw [← bind_assoc]
  refine Checks.bind ?_ onward
  exact checks_section (fun value => do
      let bindingMembers ← expectObject (place.key "bindings") value
      decodeBindings (place.key "bindings") bindingMembers) "bindings" ⟨[], rfl⟩
    fun _ => judges_object (fun _ => rfl) (fun _ => checks_decodeBindings) (by simp)

/-! ### Nodes -/

/-- The reader of nodes keeps to the schema on a value, wherever it stands. -/
def IsJudged (value : Json) : Prop :=
  ∀ place, Judges (Node.decode place value) .node place value

theorem checks_decodeNodes {items : List Json} {i : Nat} (judged : ∀ item ∈ items, IsJudged item) :
    Checks (decodeNodes place i items) place (Shape.node.eachItem i items) := by
  induction items generalizing i with
  | nil =>
    rw [decodeNodes]
    exact .ok [] place
  | cons item rest ih =>
    rw [decodeNodes]
    exact (Judges.checks ⟨.index i, .node, item⟩ (judged item List.mem_cons_self _)).bind
      fun node => (ih fun other member => judged other (List.mem_cons_of_mem _ member)).finish _

theorem checks_childrenIn
    (judged : ∀ items, lookup? "children" members = some (.array items) →
      ∀ item ∈ items, IsJudged item) :
    Checks (childrenIn (place.key "children") members) place
      (Shape.nodeList.sectionPart "children" members) := by
  rw [childrenIn_eq]
  refine checks_of_lookup (fun free => ⟨[], ?_⟩) (fun value found skip => ⟨[], ?_⟩) ?_
  · rw [memberOr, free]
    simp [decodeChildren, Json.isFalsy]
  · rw [memberOr, found, Option.getD_some]
    cases value with
    | array items =>
      obtain rfl := List.isEmpty_iff.1 skip
      rw [decodeChildren, decodeNodes]
    | _ => simp [decodeChildren, skip]
  · intro value found kept
    rw [memberOr, found, Option.getD_some]
    cases value with
    | array items =>
      rw [decodeChildren]
      exact (checks_decodeNodes (judged items found)).judges rfl (by simp)
    | _ =>
      unfold decodeChildren
      rw [if_neg (by simp [kept])]
      exact judges_refuseValue rfl

theorem checks_alternativeAmong
    (judged : ∀ value, lookup? alternativeKey members = some value → IsJudged value) :
    Checks (alternativeAmong place members) place
      (Shape.node.member Json.isNull alternativeKey members) := by
  rw [alternativeAmong_eq]
  refine checks_of_lookup (fun free => ⟨none, by rw [free]⟩) (fun value found skip => ⟨none, ?_⟩) ?_
  · rw [found, Json.isNull_iff.1 skip]
  · intro value found kept
    rw [found]
    cases value with
    | null => cases kept
    | _ => exact (judged _ found _).map some

/-- The annotations are read together with the alternative among them. -/
theorem checks_annotations {read : List (String × Json) → Option Node → Decoded α} {others : List Part}
    (judged : ∀ inner value, lookup? "meta" members = some (.object inner) →
      lookup? alternativeKey inner = some value → IsJudged value)
    (onward : ∀ annotations alternative, Checks (read annotations alternative) place others) :
    Checks (do
        let annotations ← objectSection place "meta" members
        let alternative ← alternativeIn (place.key "meta") members
        read annotations alternative) place
      (Shape.annotations.sectionPart "meta" members ++ others) := by
  have pair : Checks (do
        let annotations ← objectSection place "meta" members
        let alternative ← alternativeIn (place.key "meta") members
        .ok (annotations, alternative)) place (Shape.annotations.sectionPart "meta" members) := by
    -- Both readings look at the same member: the first one refuses what is no object, and the second
    -- one passes over it.
    rw [alternativeIn_eq, objectSection, sectionOr, memberOr, Shape.sectionPart, Shape.member]
    cases found : lookup? "meta" members with
    | none => exact .ok _ place
    | some value =>
      cases value with
      | object inner =>
        have checked : Judges (alternativeAmong (place.key "meta") inner) .annotations
            (place.key "meta") (.object inner) :=
          (checks_alternativeAmong fun value member => judged inner value found member).judges rfl
            (by simp)
        cases inner with
        | nil => exact .ok _ place
        | cons first rest =>
          exact Checks.finish (Judges.checks
            ⟨.key "meta", .annotations, .object (first :: rest)⟩ checked) _
      | _ =>
        dsimp only [Option.getD_some]
        split
        · exact .ok _ place
        · exact Judges.checks ⟨.key "meta", .annotations, _⟩
            (judges_refuseValue (α := List (String × Json) × Option Node) rfl)
  have same : (do
        let annotations ← objectSection place "meta" members
        let alternative ← alternativeIn (place.key "meta") members
        read annotations alternative) =
      (do
        let annotations ← objectSection place "meta" members
        let alternative ← alternativeIn (place.key "meta") members
        .ok (annotations, alternative)) >>= fun both => read both.1 both.2 := by
    simp only [bind_assoc]
    rfl
  rw [same]
  exact pair.bind fun both => onward both.1 both.2

theorem sizeOf_lt_of_lookup? {key : String} (found : lookup? key members = some value) :
    sizeOf value < sizeOf members := by
  have member := List.sizeOf_lt_of_mem (Dictionary.mem_of_lookup? found)
  simp only [Prod.mk.sizeOf_spec] at member
  omega

/-- What the reader says about a node. -/
theorem judges_node (value : Json) : IsJudged value := by
  intro place
  cases value with
  | object members =>
    have children (items : List Json) (found : lookup? "children" members = some (.array items))
        (item : Json) (member : item ∈ items) : IsJudged item := judges_node item
    have alternative (inner : List (String × Json)) (value : Json)
        (found : lookup? "meta" members = some (.object inner))
        (held : lookup? alternativeKey inner = some value) : IsJudged value := judges_node value
    rw [Node.decode]
    have marked : Checks (checkMark nodeMark .nodeMark place members) place
        (Shape.nodeMark.given "@type" members) :=
      checks_checkMark (fun _ => rfl) (fun value => by cases value <;> rfl) (by simp)
    cases named : lookup? "name" members with
    | none =>
      -- The mark is looked at first, and a wrong one is blamed in place of the missing name.
      cases result : checkMark nodeMark .nodeMark place members with
      | error fault =>
        rw [result] at marked
        obtain ⟨part, member, blames⟩ := marked
        exact .inside (by simp [Shape.parts, Shape.partsOfMembers, member]) blames
      | ok mark => exact judges_refuseValue (by simp [Shape.fault?, named])
    | some name =>
      have nameText : Checks (expectString (place.key "name") name) place
          (Shape.text.given "name" members) := by
        refine checks_of_lookup (by simp [named]) (by simp) fun value found _ => ?_
        obtain rfl := Option.some.inj (named.symm.trans found)
        exact judges_expectString
      refine Checks.judges ?_ (by simp [Shape.fault?, named]) (by simp)
      simp only [pure_bind]
      -- The name is read after the scope, and the schema does not care about the order.
      refine (marked.bind fun _ => (checks_objectSection "properties").bind fun properties =>
        checks_bindings fun bindings => checks_annotations alternative fun annotations alternative =>
        (checks_objectSection "scope").bind fun scope => nameText.bind fun name =>
        (checks_childrenIn children).finish _).congr fun part => ?_
      simp only [Shape.parts, Shape.partsOfMembers, List.mem_append, or_assoc]
  | _ =>
    rw [Node.decode]
    exact judges_refuseValue rfl
    all_goals simp
termination_by sizeOf value
decreasing_by
  · have outer := sizeOf_lt_of_lookup? found
    have below := List.sizeOf_lt_of_mem member
    simp only [Json.array.sizeOf_spec, Json.object.sizeOf_spec] at outer ⊢
    omega
  · have outer := sizeOf_lt_of_lookup? found
    have below := sizeOf_lt_of_lookup? held
    simp only [Json.object.sizeOf_spec] at outer ⊢
    omega

/-! ### The other sections -/

theorem judges_importSpec :
    Judges (do
        let members ← expectObject place value
        let names ← objectSection place "imports" members
        let path ← expectString (place.key "path") (memberOr .null "path" members)
        .ok (names, path)) .importSpec place value := by
  refine judges_object (fun _ => rfl) (fun members => ?_) (by simp)
  exact (checks_objectSection "imports").bind fun names =>
    (Judges.checks ⟨.key "path", .text, memberOr .null "path" members⟩ judges_expectString).finish _

theorem checks_decodeImports {items : List Json} {i : Nat} :
    Checks (decodeImports place i items) place (Shape.importSpec.eachItem i items) := by
  induction items generalizing i with
  | nil => exact .ok [] place
  | cons item rest ih =>
    have same : decodeImports place i (item :: rest) =
        (do
          let members ← expectObject (place.index i) item
          let names ← objectSection (place.index i) "imports" members
          let path ← expectString ((place.index i).key "path") (memberOr .null "path" members)
          .ok (names, path)) >>= fun spec =>
            decodeImports place (i + 1) rest >>= fun specs =>
            .ok ({ path := spec.2
                   names := Dictionary.ofList (spec.1.map fun pair => (pair.1, pair.2.asText)) } :: specs) := by
      simp only [decodeImports, bind_assoc]
      rfl
    rw [same]
    exact (Judges.checks ⟨.index i, .importSpec, item⟩ judges_importSpec).bind
      fun spec => ih.finish _

theorem judges_importList : Judges (decodeImportSection place value) .importList place value := by
  cases value with
  | array items => exact checks_decodeImports.judges rfl (by simp)
  | _ => exact judges_refuseValue rfl

theorem checks_decodePropNames {items : List Json} {i : Nat} :
    Checks (decodePropNames place i items) place (Shape.text.eachItem i items) := by
  induction items generalizing i with
  | nil => exact .ok [] place
  | cons item rest ih =>
    exact (Judges.checks ⟨.index i, .text, item⟩ judges_expectString).bind
      fun name => ih.finish _

theorem judges_propType : Judges (decodePropType place value) .propType place value := by
  cases value with
  | object members =>
    exact (checks_given (optionalString (place.key "type")) "type" ⟨none, rfl⟩
      fun _ => judges_optionalString).judges rfl (by simp)
  | null => exact (Checks.ok none place).judges rfl (by simp)
  | string text => exact (Checks.ok (some text) place).judges rfl (by simp)
  | _ => exact judges_refuseValue rfl

theorem checks_decodePropMembers :
    Checks (decodePropMembers place members) place
      (Shape.propType.eachMember (fun _ => false) members) := by
  induction members with
  | nil => exact .ok [] place
  | cons member rest ih =>
    obtain ⟨key, value⟩ := member
    exact (Judges.checks ⟨.key key, .propType, value⟩ judges_propType).bind
      fun type => ih.finish _

theorem judges_propList : Judges (decodeProps place value) .propList place value := by
  cases value with
  | array items => exact checks_decodePropNames.judges rfl (by simp)
  | object members => exact checks_decodePropMembers.judges rfl (by simp)
  | _ => exact judges_refuseValue rfl

/-! ### Hooks -/

theorem judges_hook : Judges (Hook.decode place value) .hook place value := by
  refine judges_object (fun _ => rfl) (fun members => ?_) (by simp)
  exact (checks_given (expectString (place.key "code")) "code" ⟨"", rfl⟩
      fun _ => judges_expectString).bind fun code =>
    (checks_given (optionalString (place.key "deps")) "deps" ⟨none, rfl⟩
      fun _ => judges_optionalString).finish _

theorem checks_decodeHookItems {items : List Json} {i : Nat} :
    Checks (decodeHookItems place i items) place (Shape.hook.eachItem i items) := by
  induction items generalizing i with
  | nil => exact .ok [] place
  | cons item rest ih =>
    exact (Judges.checks ⟨.index i, .hook, item⟩ judges_hook).bind fun hook => ih.finish _

theorem judges_hookSequence : Judges (decodeHookList place value) .hookSequence place value := by
  cases value with
  | object members => exact checks_decodeHookItems.judges rfl fun _ => rfl
  | array items => exact checks_decodeHookItems.judges rfl fun _ => rfl
  | string text => exact checks_decodeHookItems.judges rfl fun _ => rfl
  | _ => exact Blames.notASequence rfl

theorem judges_onInit (present : value.isNull = false) :
    Judges (decodeOnInit place value) .hook place value := by
  have same : decodeOnInit place value = (Hook.decode place value).map some := by
    cases value <;> first | rfl | cases present
  rw [same]
  exact judges_hook.map some

theorem judges_onMount (present : value.isNoMount = false) :
    Judges (decodeOnMount place value) .hookSequence place value := by
  have same : decodeOnMount place value = decodeHookList place value := by
    cases value with
    | null => cases present
    | object members => rfl
    | _ => exact if_neg (by simpa [Json.isNoMount] using present)
  rw [same]
  exact judges_hookSequence

theorem judges_onUpdate (present : value.isNull = false) :
    Judges (decodeOnUpdate place value) .hookSequence place value := by
  have same : decodeOnUpdate place value = (decodeHookList place value).map some := by
    cases value <;> first | rfl | cases present
  rw [same]
  exact judges_hookSequence.map some

theorem judges_hooks : Judges (Hooks.decode place value) .hooks place value := by
  refine judges_object (fun _ => rfl) (fun members => ?_) (by simp)
  refine ((checks_member (decodeOnInit (place.key "onInit")) "onInit" ⟨none, rfl⟩ ?_
      fun value => judges_onInit).bind fun onInit =>
    (checks_member (decodeOnMount (place.key "onMount")) "onMount" ⟨[], rfl⟩ ?_
      fun value => judges_onMount).bind fun onMount =>
    (checks_member (decodeOnUpdate (place.key "onUpdate")) "onUpdate" ⟨none, rfl⟩ ?_
      fun value => judges_onUpdate).finish _).congr fun part => ?_
  · rintro value skip
    exact ⟨none, by rw [Json.isNull_iff.1 skip]; rfl⟩
  · rintro value skip
    refine ⟨[], ?_⟩
    cases value with
    | object members => cases skip
    | null => rfl
    | _ => exact if_pos skip
  · rintro value skip
    exact ⟨none, by rw [Json.isNull_iff.1 skip]; rfl⟩
  · simp only [Shape.partsOfMembers, List.mem_append, or_assoc]

/-! ### Documents -/

/-- What the reader says about a document. -/
theorem judges_component (document : Json) :
    Judges (Component.decode document) .component .root document := by
  refine judges_object (fun _ => rfl) (fun members => ?_) (by simp)
  have marked : Checks (checkMark componentMark .componentMark .root members) .root
      (Shape.componentMark.given "@type" members) :=
    checks_checkMark (fun _ => rfl) (fun value => by cases value <;> rfl) (by simp)
  refine (marked.bind fun _ =>
    (checks_given (expectString (Place.root.key "name")) "name" ⟨defaultName, rfl⟩
      fun _ => judges_expectString).bind fun name =>
    (checks_section (decodeImportSection (Place.root.key "imports")) "imports" ⟨[], rfl⟩
      fun _ => judges_importList).bind fun imports =>
    (checks_objectSection "state").bind fun state =>
    (checks_section (decodeProps (Place.root.key "props")) "props" ⟨[], rfl⟩
      fun _ => judges_propList).bind fun props =>
    (checks_section (Hooks.decode (Place.root.key "hooks")) "hooks" ⟨{}, rfl⟩
      fun _ => judges_hooks).bind fun hooks =>
    (checks_childrenIn fun _ _ item _ => judges_node item).bind fun children =>
    (checks_given (optionalString (Place.root.key "style")) "style" ⟨none, rfl⟩
      fun _ => judges_optionalString).bind fun style =>
    (checks_given (optionalString (Place.root.key "propsTypeRef")) "propsTypeRef" ⟨none, rfl⟩
      fun _ => judges_optionalString).bind fun propsType =>
    (checks_objectSection "meta").finish _).congr fun part => ?_
  simp only [Shape.partsOfMembers, List.mem_append, or_assoc]

/-- A document is loaded exactly if it fits the schema. Otherwise the failure tells what is wrong with
a value and at which place it stands, but for a value that is no sequence in the place of the mount or
the update hooks, about which it tells nothing. -/
theorem loadComponent_schema (document : Json) :
    ((∃ component, loadComponent document = .ok component) ↔ Fits .component document) ∧
    ∀ failure, loadComponent document = .error failure →
      ∃ place shape value, Located document place shape value ∧
        ((∃ fault, shape.fault? value = some fault ∧ failure = .document none fault place ∧
            failure.message = fault.message ++ " (at " ++ place.render ++ ")") ∨
          failure = .notASequence ∧ shape = .hookSequence ∧ value.isSequence = false ∧
            (place = [.key "onMount", .key "hooks"] ∨ place = [.key "onUpdate", .key "hooks"])) := by
  have judged := judges_component document
  unfold loadComponent
  cases result : Component.decode document with
  | ok component =>
    rw [result] at judged
    exact ⟨⟨fun _ => judged, fun _ => ⟨component, rfl⟩⟩, fun failure failed => by cases failed⟩
  | error error =>
    rw [result] at judged
    refine ⟨⟨?_, fun fits => absurd judged fits.not_blames⟩, ?_⟩
    · rintro ⟨component, loaded⟩
      cases loaded
    · intro failure failed
      cases failed
      obtain ⟨place, shape, value, located, ⟨fault, found, rfl⟩ | ⟨rfl, unlisted, rfl⟩⟩ :=
        Blames.exists_located judged .document
      · exact ⟨place, shape, value, located, .inl ⟨fault, found, rfl, rfl⟩⟩
      · exact ⟨place, _, value, located, .inr ⟨rfl, rfl, unlisted, located.place_of_hookSequence⟩⟩

/-- A document with nothing but a value in the place of hooks. -/
def withHooks (key : String) (value : Json) : Json :=
  .object [("hooks", .object [(key, value)])]

/-- A number in the place of the mount hooks is an offence, and the failure tells no place for it. The
same goes for a false value in the place of the update hooks, which is fine for the mount hooks. -/
theorem loadComponent_withHooks :
    Located (withHooks "onMount" (.int 5)) [.key "onMount", .key "hooks"] .hookSequence (.int 5) ∧
    ¬ Fits .component (withHooks "onMount" (.int 5)) ∧
    loadComponent (withHooks "onMount" (.int 5)) = .error .notASequence ∧
    (∀ file fault place, Failure.notASequence ≠ .document file fault place) ∧
    loadComponent (withHooks "onUpdate" (.bool false)) = .error .notASequence ∧
    ∃ component, loadComponent (withHooks "onMount" (.bool false)) = .ok component := by
  have hooks : ⟨.key "hooks", .hooks, .object [("onMount", .int 5)]⟩ ∈
      Shape.component.parts (withHooks "onMount" (.int 5)) := by
    simp [withHooks, Shape.parts, Shape.partsOfMembers, Shape.sectionPart, Shape.given, Shape.member,
      lookup?, Json.isFalsy]
  have number : ⟨.key "onMount", .hookSequence, .int 5⟩ ∈
      Shape.hooks.parts (.object [("onMount", .int 5)]) := by
    simp [Shape.parts, Shape.partsOfMembers, Shape.member, lookup?, Json.isFalsy, Json.isNoMount]
  have blames : Blames .component .root (withHooks "onMount" (.int 5))
      (.notASequence [.key "onMount", .key "hooks"]) :=
    .inside hooks (.inside number (.notASequence rfl))
  exact ⟨.part (.part .document hooks) number, fun fits => fits.not_blames blames, rfl, by simp, rfl,
    _, rfl⟩

end ComponentCompiler
