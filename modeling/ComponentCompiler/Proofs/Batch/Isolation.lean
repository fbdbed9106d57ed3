import ComponentCompiler.Proofs.Batch.Completion

/-!
# What a bad document does to a batch

A document that is refused with a message takes nothing away from the batch: without it the same
artifacts and the same manifest are written, and only its message and its count are missing. A
document that is no text, or has a value that is no sequence in the place of its hooks, stops the
batch.

## Main definitions

* `Batch.GoesAlong` — a change of the progress that does not interfere with what steps add to it
* `Batch.Isolated` — two results of a batch that differ in one message

## Main results

* `Batch.step_changed`, `Batch.steps_changed` — steps on a changed progress
* `Batch.build_of_refused` — a batch with a refused document, and the one without it
* `Batch.build_of_badDocument` — which bad documents are survived, and which stop the batch
-/

namespace ComponentCompiler.Batch

open Files (FileTree Path)

variable {options : Options} {source out place path hidden : Path} {tree : FileTree}
  {progress : Progress} {places : List Path}

/-! ### Steps on a changed progress -/

/-- A result of steps with its progress and its tree changed. -/
def changed (change : Progress → Progress) (onTree : FileTree → FileTree)
    (result : Except Stop Progress × FileTree) : Except Stop Progress × FileTree :=
  (result.1.map change, onTree result.2)

/-- A change of the progress that can as well be made after what a step adds to it. -/
structure GoesAlong (change : Progress → Progress) (onTree : FileTree → FileTree) : Prop where
  tree : ∀ progress, (change progress).tree = onTree progress.tree
  refused : ∀ progress message,
    { change progress with
      tree := onTree progress.tree
      errors := (change progress).errors ++ [message] } =
    change { progress with errors := progress.errors ++ [message] }
  compiled : ∀ progress grown name line hydrated,
    { change progress with
      tree := onTree grown
      entries := (change progress).entries.put name line
      components := (change progress).components + 1
      hydrated := (change progress).hydrated + hydrated } =
    change { progress with
      tree := grown
      entries := progress.entries.put name line
      components := progress.components + 1
      hydrated := progress.hydrated + hydrated }

section Changed

variable {change : Progress → Progress} {onTree : FileTree → FileTree}
  (along : GoesAlong change onTree)

include along

/-- A step on a changed progress, if the change does not matter for reading the document and writing
its artifact. -/
theorem step_changed
    (loads : load (onTree progress.tree) (source ++ place) = load progress.tree (source ++ place))
    (directories : FileTree.makeDirectory (onTree progress.tree) (out ++ artifactPath place).dropLast =
      (FileTree.makeDirectory progress.tree (out ++ artifactPath place).dropLast).map onTree)
    (writes : ∀ between code, FileTree.write (onTree between) (out ++ artifactPath place) code =
      (FileTree.write between (out ++ artifactPath place) code).map onTree) :
    step options source out (change progress) place =
      changed change onTree (step options source out progress place) := by
  simp only [step, along.tree, loads, directories]
  cases load progress.tree (source ++ place) with
  | error stop => rfl
  | ok found =>
    obtain ⟨bytes, component⟩ := found
    dsimp only
    cases compileDocument options component with
    | error failure =>
      dsimp only
      split
      · rw [along.refused]
        rfl
      · rfl
    | ok made =>
      cases FileTree.makeDirectory progress.tree (out ++ artifactPath place).dropLast with
      | error fault => rfl
      | ok between =>
        dsimp only [Except.map]
        rw [writes]
        cases FileTree.write between (out ++ artifactPath place)
            (Files.encodeText made.2.code) with
        | error fault => rfl
        | ok grown =>
          dsimp only [Except.map]
          rw [along.compiled]
          rfl

/-- A change of the progress that goes with every step goes with all of them. -/
theorem steps_changed
    (stepwise : ∀ place ∈ places, ∀ progress,
      step options source out (change progress) place =
        changed change onTree (step options source out progress place)) :
    steps options source out (change progress) places =
      changed change onTree (steps options source out progress places) := by
  induction places generalizing progress with
  | nil => simp [steps, changed, along.tree, Except.map]
  | cons place rest ih =>
    rw [steps, steps, stepwise place List.mem_cons_self]
    obtain ⟨outcome, grown⟩ := step options source out progress place
    cases outcome with
    | error stop => rfl
    | ok next => exact ih fun other member => stepwise other (List.mem_cons_of_mem _ member)

end Changed

namespace Progress

/-- The progress of a batch in whose tree a file is missing. -/
def without (hidden : Path) (progress : Progress) : Progress :=
  { progress with tree := progress.tree.erase hidden }

/-- The progress of a batch that has kept messages before. -/
def after (errors : List String) (progress : Progress) : Progress :=
  { progress with errors := errors ++ progress.errors }

theorem goesAlong_without (hidden : Path) : GoesAlong (without hidden) (·.erase hidden) :=
  ⟨fun _ => rfl, fun _ _ => rfl, fun _ _ _ _ _ => rfl⟩

theorem goesAlong_after (errors : List String) : GoesAlong (after errors) id :=
  ⟨fun _ => rfl, fun _ _ => by simp [after], fun _ _ _ _ _ => rfl⟩

end Progress

theorem load_erase (distinct : path ≠ hidden) : load (tree.erase hidden) path = load tree path := by
  rw [load, load, FileTree.read_erase distinct]

/-- A file off the way of a document and its artifact makes no difference to its step. -/
theorem step_without (distinct : source ++ place ≠ hidden)
    (apart : ¬ hidden <+: out ++ artifactPath place) :
    step options source out (progress.without hidden) place =
      changed (·.without hidden) (·.erase hidden) (step options source out progress place) := by
  have above : ¬ hidden <+: (out ++ artifactPath place).dropLast := fun below =>
    apart (below.trans (List.dropLast_prefix _))
  exact step_changed (Progress.goesAlong_without hidden) (load_erase distinct)
    (FileTree.makeDirectory_erase above) fun _ _ => FileTree.write_erase apart

/-- Earlier messages make no difference to the steps. -/
theorem steps_after (errors : List String) :
    steps options source out (progress.after errors) places =
      changed (·.after errors) id (steps options source out progress places) :=
  steps_changed (Progress.goesAlong_after errors) fun _ _ _ =>
    step_changed (Progress.goesAlong_after errors) rfl (congrFun Except.map_id _).symm
      fun _ _ => (congrFun Except.map_id _).symm

/-! ### Results with one message more -/

/-- Two results of a batch, one with a document and one without it: the document adds its message,
and everything else is the same. -/
structure Isolated (source out document : Path) (bytes : List UInt8) (message : String)
    (full rest : Except Stop Summary × FileTree) : Prop where
  tree : full.2.erase document = rest.2
  stopped : ∀ stop, rest.1 = .error stop → full.1 = .error stop
  completed : ∀ summary, rest.1 = .ok summary →
    (∃ before after, summary.errors = before ++ after ∧
      full.1 = .ok
        { summary with failed := summary.failed + 1, errors := before ++ message :: after }) ∧
    FileTree.read full.2 document = .ok bytes ∧
    ∃ entries, FileTree.read full.2 (out ++ [manifestName]) =
      .ok (Files.encodeText (manifest source entries).pretty)

variable {document : Path} {bytes : List UInt8} {message : String}

theorem isolated_of_stop (stop : Stop) (tree : FileTree) :
    Isolated source out document bytes message (.error stop, tree)
      (.error stop, tree.erase document) where
  tree := rfl
  stopped := fun _ same => same
  completed := fun _ impossible => nomatch impossible

/-- One more message among those of the steps is one more message in the result. -/
theorem isolated_finish (apart : ¬ document <+: out ++ [manifestName]) (before : List String)
    {result : Except Stop Progress × FileTree}
    (kept : ∀ progress, result.1 = .ok progress → FileTree.read result.2 document = .ok bytes) :
    Isolated source out document bytes message
      (finish source out (changed (·.after (before ++ [message])) id result))
      (finish source out
        (changed (fun progress => (progress.after before).without document) (·.erase document)
          result)) := by
  obtain ⟨outcome, tree⟩ := result
  cases outcome with
  | error stop => exact isolated_of_stop stop tree
  | ok progress =>
    have distinct : document ≠ out ++ [manifestName] := by
      rintro rfl
      exact apart List.prefix_rfl
    simp only [changed, Except.map, finish, Progress.after, Progress.without, id,
      FileTree.write_erase apart]
    cases written : FileTree.write tree (out ++ [manifestName])
        (Files.encodeText (manifest source progress.entries).pretty) with
    | error fault => exact isolated_of_stop _ tree
    | ok grown =>
      refine ⟨rfl, ?_, ?_⟩
      · rintro stop ⟨⟩
      rintro summary ⟨⟩
      refine ⟨⟨before, progress.errors, rfl, ?_⟩, ?_, progress.entries, ?_⟩
      · simp only [List.append_assoc, List.singleton_append, List.length_append, List.length_cons]
        rfl
      · rw [FileTree.read_write_other written distinct]
        exact kept progress rfl
      · exact FileTree.read_write_self written

/-! ### Refused documents -/

theorem step_of_refused {failure : Failure}
    (refused : Refuses options progress.tree (source ++ place) failure) :
    step options source out progress place =
      (.ok { progress with errors := progress.errors ++ [failure.message] }, progress.tree) := by
  obtain ⟨bytes, component, loaded, failed, told⟩ := refused
  exact step_of_stepsTo (.refused loaded failed told)

section Apart

variable {before after : List Path} {failure : Failure}
  (off : ∀ more, ¬ source ++ place <+: out ++ more)

include off

theorem steps_without (absent : place ∉ places) :
    steps options source out (progress.without (source ++ place)) places =
      changed (·.without (source ++ place)) (·.erase (source ++ place))
        (steps options source out progress places) := by
  refine steps_changed (Progress.goesAlong_without _) fun other member progress =>
    step_without ?_ (off _)
  rw [Ne, List.append_cancel_left_eq]
  exact fun same => absent (same ▸ member)

/-- The steps of a batch with a refused document, and those of the batch without it. -/
theorem isolated_steps (outside : ¬ out <+: source ++ place) (absent : place ∉ before ++ after)
    (held : FileTree.read progress.tree (source ++ place) = .ok bytes)
    (refused : Refuses options progress.tree (source ++ place) failure) :
    Isolated source out (source ++ place) bytes failure.message
      (finish source out (steps options source out progress (before ++ place :: after)))
      (finish source out
        (steps options source out (progress.without (source ++ place)) (before ++ after))) := by
  obtain ⟨absentBefore, absentAfter⟩ := not_or.1 (mt List.mem_append.2 absent)
  rw [steps_append, steps_append, steps_without off absentBefore]
  cases ran : steps options source out progress before with
  | mk outcome tree =>
    cases outcome with
    | error stop => exact isolated_of_stop stop tree
    | ok reached =>
      have same (kept : List UInt8) :
          FileTree.read reached.tree (source ++ place) = .ok kept ↔
            FileTree.read progress.tree (source ++ place) = .ok kept :=
        read_steps (congrArg Prod.fst ran) outside
      have still := refused.congr same
      -- Both batches go on from here, up to the messages that they have kept so far.
      let clean : Progress := { reached with errors := [] }
      have full : steps options source out reached (place :: after) =
          changed (·.after (reached.errors ++ [failure.message])) id
            (steps options source out clean after) := by
        rw [steps, step_of_refused still, ← steps_after]
        simp [Progress.after, clean]
      have rest : steps options source out (reached.without (source ++ place)) after =
          changed (fun progress => (progress.after reached.errors).without (source ++ place))
            (·.erase (source ++ place)) (steps options source out clean after) := by
        rw [steps_without off absentAfter]
        have messages : reached = clean.after reached.errors := by simp [Progress.after, clean]
        conv_lhs => rw [messages, steps_after]
        cases steps options source out clean after with
        | mk outcome tree => cases outcome <;> rfl
      simp only [changed, Except.map]
      rw [full, rest]
      refine isolated_finish (off _) reached.errors fun final ended => ?_
      rw [tree_of_steps ended, read_steps ended outside]
      exact (same bytes).2 held

end Apart

/-- A batch with a refused document does what the batch without it does, and keeps its message. -/
theorem build_of_refused {failure : Failure} (named : isDocument source out place = true)
    (held : FileTree.read tree (source ++ place) = .ok bytes)
    (refused : Refuses options tree (source ++ place) failure)
    (apart : ¬ source ++ place <+: out) :
    Isolated source out (source ++ place) bytes failure.message (build options source out tree)
      (build options source out (tree.erase (source ++ place))) := by
  have outside := not_prefix_of_isDocument named
  have off (more : Path) : ¬ source ++ place <+: out ++ more := fun below =>
    (List.prefix_or_prefix_of_prefix below (List.prefix_append out more)).elim apart outside
  cases made : FileTree.makeDirectory tree out with
  | error fault =>
    have stops : build options source out tree = (.error (.file fault), tree) := by
      simp [build, made]
    have stopsRest : build options source out (tree.erase (source ++ place)) =
        (.error (.file fault), tree.erase (source ++ place)) := by
      simp [build, FileTree.makeDirectory_erase apart, made, Except.map]
    rw [stops, stopsRest]
    exact isolated_of_stop _ tree
  | ok grown =>
    have madeRest : FileTree.makeDirectory (tree.erase (source ++ place)) out =
        .ok (grown.erase (source ++ place)) := by
      rw [FileTree.makeDirectory_erase apart, made]
      rfl
    have heldGrown := (FileTree.read_makeAlong made).2 held
    obtain ⟨before, after, split⟩ := List.append_of_mem
      (mem_documents.2 ⟨FileTree.mem_keys_of_read heldGrown, named⟩)
    have absent : place ∉ before ++ after := (List.nodup_middle.1 (split ▸ nodup_documents)).notMem
    have refusedGrown := refused.congr fun _ => FileTree.read_makeAlong made
    rw [build_eq_finish made, build_eq_finish madeRest, documents_erase split, split]
    exact isolated_steps off outside absent heldGrown refusedGrown

/-! ### Documents that stop a batch -/

/-- In a batch that completes every document is a text, and none is refused without a message. -/
theorem exists_text_of_build {summary : Summary}
    (completed : (build options source out tree).1 = .ok summary)
    (named : isDocument source out place = true)
    (held : FileTree.read tree (source ++ place) = .ok bytes) :
    ∃ text, Files.decodeText bytes = .ok text ∧
      ∀ failure, loadText (Path.toString (source ++ place)) text = .error failure →
        failure.isReported = true := by
  obtain ⟨reached, next, stepped, same⟩ := exists_step_of_build completed named held
  have heldThere := (same bytes).2 held
  cases stepped with
  | refused loaded failed told =>
    obtain ⟨kept, text, read, decoded, found⟩ := load_eq_ok_iff.1 loaded
    obtain rfl : bytes = kept := Except.ok.inj (heldThere.symm.trans read)
    obtain ⟨-, rfl⟩ := Prod.mk.inj found
    refine ⟨text, decoded, fun failure refused => ?_⟩
    rw [refused] at failed
    cases failed
    exact told
  | compiled made saved =>
    obtain ⟨kept, text, read, decoded, found⟩ := load_eq_ok_iff.1 made.loaded
    obtain rfl : bytes = kept := Except.ok.inj (heldThere.symm.trans read)
    refine ⟨text, decoded, fun failure refused => ?_⟩
    rw [refused] at found
    cases found

/-- A document whose text is refused is refused with a message, unless a value in it is no
sequence. -/
theorem isReported_of_loadText {file text : String} {failure : Failure}
    (refused : loadText file text = .error failure) (sequence : failure ≠ .notASequence) :
    failure.isReported = true := by
  unfold loadText at refused
  split at refused
  · cases refused
    rfl
  · next document read =>
    cases decoded : Component.decode document with
    | ok component => simp [decoded, Except.mapError] at refused
    | error error =>
      cases error with
      | invalid fault place =>
        simp only [decoded, Except.mapError, Failure.ofDocument, Except.error.injEq] at refused
        cases refused
        rfl
      | notASequence place =>
        simp only [decoded, Except.mapError, Failure.ofDocument, Except.error.injEq] at refused
        exact absurd refused.symm sequence

/-- A batch that completes with a document that is isolated in it has kept its message. -/
theorem Isolated.message_mem {full rest : Except Stop Summary × FileTree} {summary : Summary}
    (isolated : Isolated source out document bytes message full rest)
    (completed : full.1 = .ok summary) : message ∈ summary.errors := by
  cases ended : rest.1 with
  | error stop =>
    rw [isolated.stopped stop ended] at completed
    cases completed
  | ok other =>
    obtain ⟨⟨before, after, -, outcome⟩, -⟩ := isolated.completed other ended
    rw [outcome] at completed
    cases completed
    simp

/-- A document whose text is refused, where no value in it is in the place of a sequence. -/
theorem refuses_of_loadText {text : String} {failure : Failure}
    (held : FileTree.read tree path = .ok bytes) (decoded : Files.decodeText bytes = .ok text)
    (failed : loadText (Path.toString path) text = .error failure)
    (sequence : failure ≠ .notASequence) : Refuses options tree path failure :=
  ⟨bytes, .error failure, load_eq_ok_iff.2 ⟨bytes, text, held, decoded, by rw [failed]⟩, rfl,
    isReported_of_loadText failed sequence⟩

/-- A file that is no text, a value that is no sequence in the place of the hooks, and an output
directory below the document stop the batch. -/
theorem exists_stop_of_build (named : isDocument source out place = true)
    (held : FileTree.read tree (source ++ place) = .ok bytes)
    (bad : Files.decodeText bytes = .error .notText ∨
      (∃ text, Files.decodeText bytes = .ok text ∧
        loadText (Path.toString (source ++ place)) text = .error .notASequence) ∨
      source ++ place <+: out) :
    ∃ stop, (build options source out tree).1 = .error stop := by
  cases ended : (build options source out tree).1 with
  | error stop => exact ⟨stop, rfl⟩
  | ok summary =>
    obtain ⟨text, decoded, told⟩ := exists_text_of_build ended named held
    obtain unreadable | ⟨other, decodedOther, failed⟩ | inside := bad
    · rw [unreadable] at decoded
      cases decoded
    · obtain rfl : text = other := Except.ok.inj (decoded.symm.trans decodedOther)
      cases told _ failed
    · obtain ⟨grown, -, made, -⟩ := exists_steps_of_build ended
      obtain ⟨fault, fails⟩ :=
        FileTree.makeDirectory_of_file (FileTree.read_eq_ok_iff.1 held) inside
      rw [fails] at made
      cases made

/-- A document that is refused with a message is isolated in its batch, unless the output directory
lies below it; and the batch completes if nothing stands in its way and all other documents are
compiled or refused with a message. An output directory below the document, a file that is no text,
and a value that is no sequence stop the batch. -/
theorem build_of_badDocument (named : isDocument source out place = true)
    (held : FileTree.read tree (source ++ place) = .ok bytes) :
    (∀ text failure, Files.decodeText bytes = .ok text →
      loadText (Path.toString (source ++ place)) text = .error failure →
      failure ≠ .notASequence → ¬ source ++ place <+: out →
      Isolated source out (source ++ place) bytes failure.message (build options source out tree)
        (build options source out (tree.erase (source ++ place))) ∧
      (IsClear source out tree →
        (∀ other, other ≠ place → isDocument source out other = true →
          source ++ other ∈ tree.keys → IsSettled options tree (source ++ other)) →
        ∃ summary, (build options source out tree).1 = .ok summary ∧
          failure.message ∈ summary.errors)) ∧
    (Files.decodeText bytes = .error .notText ∨
      (∃ text, Files.decodeText bytes = .ok text ∧
        loadText (Path.toString (source ++ place)) text = .error .notASequence) ∨
      source ++ place <+: out →
      ∃ stop, (build options source out tree).1 = .error stop) := by
  refine ⟨?_, exists_stop_of_build named held⟩
  intro text failure decoded failed sequence apart
  have refused : Refuses options tree (source ++ place) failure :=
    refuses_of_loadText held decoded failed sequence
  have isolated := build_of_refused named held refused apart
  refine ⟨isolated, fun unhindered others => ?_⟩
  have settled (other : Path) (namedOther : isDocument source out other = true)
      (there : source ++ other ∈ tree.keys) : IsSettled options tree (source ++ other) := by
    by_cases same : other = place
    · exact .inl ⟨failure, same ▸ refused⟩
    · exact others other same namedOther there
  obtain ⟨summary, completed⟩ := build_completes unhindered settled
  exact ⟨summary, completed, isolated.message_mem completed⟩

/-- A source directory with one document. -/
def sourceWith (bytes : List UInt8) : FileTree :=
  Dictionary.ofList [(["src"], .directory), (["src", "Bad.json"], .file bytes)]

variable {content : List UInt8}

theorem keys_sourceWith : (sourceWith content).keys = [["src"], ["src", "Bad.json"]] := rfl

/-- The document is the only one. -/
theorem eq_of_mem_sourceWith (named : isDocument ["src"] ["out"] place = true)
    (there : ["src"] ++ place ∈ (sourceWith content).keys) : place = ["Bad.json"] := by
  have lower := ne_nil_of_isDocument named
  simpa [keys_sourceWith, lower] using there

/-- Nothing stands in the way of a batch over one document. -/
theorem isClear_sourceWith : IsClear ["src"] ["out"] (sourceWith content) where
  empty := by simp [keys_sourceWith]
  way := by
    intro path along bytes held
    obtain rfl | rfl : path = [] ∨ path = ["out"] := by
      simpa [List.prefix_cons_iff] using along
    · cases held
    · cases held
  apart := by simp
  names := by
    intro place named there
    rw [eq_of_mem_sourceWith named there]
    simp

/-- An empty list where a component should be: it costs the batch nothing but its message. -/
theorem build_emptyList : isDocument ["src"] ["out"] ["Bad.json"] = true ∧
    FileTree.read (sourceWith [0x5b, 0x5d]) ["src", "Bad.json"] = .ok [0x5b, 0x5d] ∧
    Isolated ["src"] ["out"] ["src", "Bad.json"] [0x5b, 0x5d]
      "/src/Bad.json: Expected an object, got list (at $)"
      (build {} ["src"] ["out"] (sourceWith [0x5b, 0x5d]))
      (build {} ["src"] ["out"] ((sourceWith [0x5b, 0x5d]).erase ["src", "Bad.json"])) ∧
    ∃ summary, (build {} ["src"] ["out"] (sourceWith [0x5b, 0x5d])).1 = .ok summary ∧
      "/src/Bad.json: Expected an object, got list (at $)" ∈ summary.errors := by
  have named : isDocument ["src"] ["out"] ["Bad.json"] = true := by decide
  have held : FileTree.read (sourceWith [0x5b, 0x5d]) (["src"] ++ ["Bad.json"]) =
      .ok [0x5b, 0x5d] := rfl
  obtain ⟨isolated, completes⟩ := (build_of_badDocument named held).1 "[]"
    (.document (some "/src/Bad.json") (.object "list") .root) rfl rfl (fun same => by cases same)
    (by decide)
  refine ⟨named, held, isolated, completes isClear_sourceWith ?_⟩
  intro other different namedOther there
  exact absurd (eq_of_mem_sourceWith namedOther there) different

/-- A file that is no text: without it the batch completes, with it the batch stops. -/
theorem build_notText : isDocument ["src"] ["out"] ["Bad.json"] = true ∧
    FileTree.read (sourceWith [0xff]) ["src", "Bad.json"] = .ok [0xff] ∧
    (build {} ["src"] ["out"] (sourceWith [0xff])).1.toOption = none ∧
    (build {} ["src"] ["out"] ((sourceWith [0xff]).erase ["src", "Bad.json"])).1.toOption =
      some { components := 0, hydrated := 0, failed := 0, out := ["out"], errors := [] } :=
  ⟨by decide, rfl, by decide +kernel, by decide +kernel⟩

end ComponentCompiler.Batch
