import Mathlib.Data.List.DropRight
import Mathlib.Data.List.Forall2
import ReplicaClient.MapReduce
import ReplicaClient.Proofs.Json.ReadBack

/-!
# What the text of a job says

A job is put together by calls in any order and number.  Its text is JSON, and what is read from it
are the inputs and the phases that the calls have asked for and nothing else, whatever characters
their strings have.
-/

namespace ReplicaClient
namespace MapReduce

open Json (ReadsAs)

/-! ## Calls -/

inductive Call where
  | add (bucket key : String)
  | addBucket (bucket : String)
  | map (source : String) (keep : Bool)
  | mapObjectValue (keep : Bool)
  | reduce (source : String) (keep : Bool)
  | linkBucket (bucket : String) (keep : Bool)
  deriving DecidableEq, Repr

def Job.call (job : Job) : Call → Job
  | .add bucket key => job.add bucket key
  | .addBucket bucket => job.addBucket bucket
  | .map source keep => job.map source keep
  | .mapObjectValue keep => job.mapObjectValue keep
  | .reduce source keep => job.reduce source keep
  | .linkBucket bucket keep => job.linkBucket bucket keep

/-- The job that the calls make of an empty one. -/
def built (calls : List Call) : Job :=
  calls.foldl Job.call {}

theorem built_append_singleton (calls : List Call) (c : Call) :
    built (calls ++ [c]) = (built calls).call c := by
  rw [built, List.foldl_append]
  rfl

namespace Call

def isBucket : Call → Bool
  | addBucket _ => true
  | _ => false

/-- The call says what the inputs are. -/
def isInput : Call → Bool
  | add _ _ => true
  | addBucket _ => true
  | _ => false

def pair? : Call → Option (String × String)
  | add bucket key => some (bucket, key)
  | _ => none

def phase? : Call → Option Phase
  | map source keep => some (.map (.source source) keep)
  | mapObjectValue keep => some (.map (.named "Riak.mapValuesJson") keep)
  | reduce source keep => some (.reduce (.source source) keep)
  | linkBucket bucket keep => some (.link bucket keep)
  | _ => none

/-- Calls of one kind that differ in nothing but what their strings are. -/
inductive Alike : Call → Call → Prop where
  | add (b k b' k' : String) : Alike (add b k) (add b' k')
  | addBucket (b b' : String) : Alike (addBucket b) (addBucket b')
  | map (s s' : String) (keep : Bool) : Alike (map s keep) (map s' keep)
  | mapObjectValue (keep : Bool) : Alike (mapObjectValue keep) (mapObjectValue keep)
  | reduce (s s' : String) (keep : Bool) : Alike (reduce s keep) (reduce s' keep)
  | linkBucket (b b' : String) (keep : Bool) : Alike (linkBucket b keep) (linkBucket b' keep)

end Call

def lastInput? (calls : List Call) : Option Call :=
  (calls.filter Call.isInput).getLast?

/-- The keys that are added behind the last whole bucket. -/
def pairsSinceBucket (calls : List Call) : List (String × String) :=
  (calls.rtakeWhile fun c ↦ !c.isBucket).filterMap Call.pair?

/-- The inputs that the calls ask for: a whole bucket if that is the last thing they say. -/
def askedInputs (calls : List Call) : Inputs :=
  match lastInput? calls with
  | some (.addBucket bucket) => .bucket bucket
  | _ => .keys (pairsSinceBucket calls)

section Calls

variable (calls : List Call)

theorem lastInput?_append (c : Call) :
    lastInput? (calls ++ [c]) = if c.isInput then some c else lastInput? calls := by
  unfold lastInput?
  rw [List.filter_append]
  cases h : c.isInput <;> simp [h]

theorem pairsSinceBucket_append {c : Call} (h : c.isBucket = false) :
    pairsSinceBucket (calls ++ [c]) = pairsSinceBucket calls ++ c.pair?.toList := by
  unfold pairsSinceBucket
  rw [List.rtakeWhile_concat_pos _ _ _ (by rw [h]; rfl), List.filterMap_append]
  cases c <;> rfl

theorem pairsSinceBucket_append_bucket (bucket : String) :
    pairsSinceBucket (calls ++ [.addBucket bucket]) = [] := by
  unfold pairsSinceBucket
  rw [List.rtakeWhile_concat_neg _ _ _ Bool.false_ne_true]
  rfl

/-- No key is added behind a bucket that nothing has replaced. -/
theorem pairsSinceBucket_of_lastInput? {bucket : String}
    (h : lastInput? calls = some (.addBucket bucket)) : pairsSinceBucket calls = [] := by
  induction calls using List.reverseRecOn with
  | nil => rfl
  | append_singleton calls c ih =>
      rw [lastInput?_append] at h
      cases c with
      | add b k => cases h
      | addBucket b => exact pairsSinceBucket_append_bucket calls b
      | _ =>
          rw [pairsSinceBucket_append calls rfl, ih h]
          rfl

theorem pairsSinceBucket_of_keys {pairs : List (String × String)}
    (h : askedInputs calls = .keys pairs) : pairsSinceBucket calls = pairs := by
  unfold askedInputs at h
  split at h
  · cases h
  · exact Inputs.keys.inj h

theorem pairsSinceBucket_of_bucket {bucket : String} (h : askedInputs calls = .bucket bucket) :
    pairsSinceBucket calls = [] := by
  unfold askedInputs at h
  split at h
  · rename_i hlast
    exact pairsSinceBucket_of_lastInput? calls hlast
  · cases h

theorem built_inputs : (built calls).inputs = askedInputs calls := by
  induction calls using List.reverseRecOn with
  | nil => rfl
  | append_singleton calls c ih =>
      rw [built_append_singleton, askedInputs, lastInput?_append]
      cases c with
      | add b k =>
          change ((built calls).add b k).inputs = .keys (pairsSinceBucket (calls ++ [.add b k]))
          rw [pairsSinceBucket_append calls (c := .add b k) rfl]
          unfold Job.add
          split
          · rename_i pairs hkeys
            rw [pairsSinceBucket_of_keys calls (ih.symm.trans hkeys)]
            rfl
          · rename_i bucket hbucket
            rw [pairsSinceBucket_of_bucket calls (ih.symm.trans hbucket)]
            rfl
      | addBucket b => rfl
      | _ =>
          rw [pairsSinceBucket_append calls rfl]
          change (built calls).inputs = _
          rw [ih, askedInputs]
          simp [Call.isInput, Call.pair?]

theorem built_phases : (built calls).phases = calls.filterMap Call.phase? := by
  induction calls using List.reverseRecOn with
  | nil => rfl
  | append_singleton calls c ih =>
      rw [built_append_singleton, List.filterMap_append, ← ih]
      cases c with
      | add b k =>
          have hadd : ((built calls).add b k).phases = (built calls).phases := by
            unfold Job.add
            split <;> rfl
          rw [Job.call, hadd]
          exact (List.append_nil _).symm
      | addBucket b => exact (List.append_nil _).symm
      | _ => rfl

end Calls

/-! ## Documents of jobs -/

def Inputs.toJson : Inputs → Json
  | bucket name => .string name
  | keys pairs => .array (pairs.map fun p ↦ .array [.string p.1, .string p.2])

/-- The one of the two members that a function has. -/
def Code.toMember : Code → String × Json
  | source text => ("source", .string text)
  | named name => ("name", .string name)

def functionJson (code : Code) (keep : Bool) : Json :=
  .object [("keep", .bool keep), ("language", .string "javascript"), code.toMember]

def Phase.toJson : Phase → Json
  | map code keep => .object [("map", functionJson code keep)]
  | reduce code keep => .object [("reduce", functionJson code keep)]
  | link bucket keep =>
      .object [("link", .object [("bucket", .string bucket), ("keep", .bool keep)])]

def Job.document (job : Job) : Json :=
  .object [("inputs", job.inputs.toJson), ("query", .array (job.phases.map Phase.toJson))]

/-! ## Reading the text -/

variable {room : Nat}

theorem readsAs_printString (s : String) : ReadsAs room (Json.printString s) (.string s) :=
  Json.readsBack_string room s

theorem readsAs_printBool (b : Bool) : ReadsAs room (printBool b) (.bool b) :=
  Json.readsBack_bool room b

theorem readsAs_printArray {α : Type} {l : List α} {text : α → List Char} {value : α → Json}
    (h : ∀ a ∈ l, ReadsAs room (text a) (value a)) :
    ReadsAs (room + 1) (printArray (l.map text)) (.array (l.map value)) := by
  have hall : ∀ p ∈ l.map fun a ↦ (text a, value a), ReadsAs room p.1 p.2 :=
    List.forall_mem_map.mpr h
  have harray := Json.readsAs_array hall
  rwa [List.map_map, List.map_map] at harray

theorem readsAs_printObject {members : List (String × List Char × Json)}
    (h : ∀ m ∈ members, ReadsAs room m.2.1 m.2.2) :
    ReadsAs (room + 1) (printObject (members.map fun m ↦ (m.1, m.2.1)))
      (Json.ofMembers (members.map fun m ↦ (m.1, m.2.2))) := by
  have hobject := Json.readsAs_object h
  unfold printObject
  rw [List.map_map]
  exact hobject

theorem readsAs_inputs (inputs : Inputs) : ReadsAs (room + 2) inputs.print inputs.toJson := by
  cases inputs with
  | bucket name => exact readsAs_printString name
  | keys pairs =>
      apply readsAs_printArray
      intro p _
      have hpair : ∀ s ∈ [p.1, p.2], ReadsAs room (Json.printString s) (.string s) :=
        fun s _ ↦ readsAs_printString s
      exact readsAs_printArray hpair

/-- A function is written with its language first and read with its members in order. -/
theorem readsAs_function (code : Code) (keep : Bool) :
    ReadsAs (room + 1) (printFunction code keep) (functionJson code keep) := by
  have hread {name : String} (text : String) (hname : "language" < name) :
      ReadsAs (room + 1)
        (printObject [("language", Json.printString "javascript"), (name, Json.printString text),
          ("keep", printBool keep)])
        (.object [("keep", .bool keep), ("language", .string "javascript"),
          (name, .string text)]) := by
    have hsorted : Assoc.ofList [("language", Json.string "javascript"), (name, .string text),
        ("keep", .bool keep)] =
          [("keep", .bool keep), ("language", .string "javascript"), (name, .string text)] := by
      have hkeep : "keep" < "language" := by decide
      simp only [Assoc.ofList, List.foldl_cons, List.foldl_nil, Assoc.insert,
        if_neg (String.lt_asymm hname), if_neg (Assoc.ne_of_lt hname).symm, if_pos hkeep]
    have hmembers := @readsAs_printObject room
      [("language", Json.printString "javascript", .string "javascript"),
        (name, Json.printString text, .string text), ("keep", printBool keep, .bool keep)]
    simp only [List.forall_mem_cons, List.map_cons, List.map_nil, Json.ofMembers, hsorted]
      at hmembers
    exact hmembers
      ⟨readsAs_printString _, readsAs_printString text, readsAs_printBool keep,
        List.forall_mem_nil _⟩
  cases code with
  | source text => exact hread text (by decide : "language" < "source")
  | named name => exact hread name (by decide : "language" < "name")

/-- Members that are written in order are read as they are written. -/
theorem readsAs_ordered {members : List (String × List Char × Json)}
    (hordered : Assoc.Ordered (members.map fun m ↦ (m.1, m.2.2)))
    (h : ∀ m ∈ members, ReadsAs room m.2.1 m.2.2) :
    ReadsAs (room + 1) (printObject (members.map fun m ↦ (m.1, m.2.1)))
      (.object (members.map fun m ↦ (m.1, m.2.2))) := by
  have hobject := readsAs_printObject h
  rwa [Json.ofMembers, Assoc.ofList_of_ordered hordered] at hobject

theorem readsAs_member (name : String) {text : List Char} {j : Json} (h : ReadsAs room text j) :
    ReadsAs (room + 1) (printObject [(name, text)]) (.object [(name, j)]) :=
  @readsAs_ordered room [(name, text, j)] (List.pairwise_singleton _ _) (by simpa using h)

theorem readsAs_members {first second : String} (hlt : first < second) {text text' : List Char}
    {j j' : Json} (h : ReadsAs room text j) (h' : ReadsAs room text' j') :
    ReadsAs (room + 1) (printObject [(first, text), (second, text')])
      (.object [(first, j), (second, j')]) :=
  @readsAs_ordered room [(first, text, j), (second, text', j')]
    (List.pairwise_pair.mpr hlt) (by simpa using ⟨h, h'⟩)

theorem readsAs_phase (phase : Phase) : ReadsAs (room + 2) phase.print phase.toJson := by
  cases phase with
  | map code keep => exact readsAs_member "map" (readsAs_function code keep)
  | reduce code keep => exact readsAs_member "reduce" (readsAs_function code keep)
  | link bucket keep =>
      exact readsAs_member "link"
        (readsAs_members (by decide : "bucket" < "keep") (readsAs_printString bucket)
          (readsAs_printBool keep))

/-- The text of a job is read as its document. -/
theorem parse_query (job : Job) : Json.parse (Utf8.encode job.query) = .ok job.document := by
  have hphases : ReadsAs 126 (printArray (job.phases.map Phase.print))
      (.array (job.phases.map Phase.toJson)) :=
    readsAs_printArray fun phase _ ↦ readsAs_phase phase
  have hjob : ReadsAs Json.maxDepth _ job.document :=
    readsAs_members (by decide : "inputs" < "query") (readsAs_inputs job.inputs) hphases
  rw [Utf8.encode, Job.query, String.toList_ofList]
  exact hjob.parse_ok

/-! ## Jobs told apart -/

theorem Inputs.toJson_injective : Function.Injective Inputs.toJson := by
  have hpair : Function.Injective fun p : String × String ↦
      Json.array [.string p.1, .string p.2] := by
    rintro ⟨b, k⟩ ⟨b', k'⟩ heq
    simpa using heq
  intro inputs inputs' heq
  cases inputs <;> cases inputs' <;>
    simp only [toJson, reduceCtorEq, Json.string.injEq, Json.array.injEq] at heq
  · rw [heq]
  · rw [List.map_injective_iff.mpr hpair heq]

theorem functionJson_inj {code code' : Code} {keep keep' : Bool}
    (heq : functionJson code keep = functionJson code' keep') : code = code' ∧ keep = keep' := by
  simp only [functionJson, Json.object.injEq, List.cons.injEq, Prod.mk.injEq, Json.bool.injEq,
    true_and, and_true] at heq
  obtain ⟨hkeep, hcode⟩ := heq
  cases code <;> cases code' <;> simp_all [Code.toMember]

theorem Phase.toJson_injective : Function.Injective Phase.toJson := by
  intro phase phase' heq
  cases phase <;> cases phase' <;> simp [toJson] at heq
  · obtain ⟨rfl, rfl⟩ := functionJson_inj heq
    rfl
  · obtain ⟨rfl, rfl⟩ := functionJson_inj heq
    rfl
  · rw [heq.1, heq.2]

theorem Job.document_injective : Function.Injective Job.document := by
  rintro ⟨inputs, phases⟩ ⟨inputs', phases'⟩ heq
  simp only [document, Json.object.injEq, List.cons.injEq, Prod.mk.injEq, Json.array.injEq,
    true_and, and_true] at heq
  obtain ⟨hinputs, hphases⟩ := heq
  rw [Inputs.toJson_injective hinputs, List.map_injective_iff.mpr Phase.toJson_injective hphases]

/-- Jobs with one text are one job. -/
theorem Job.query_injective : Function.Injective Job.query := by
  intro job job' heq
  have hdocument := parse_query job
  rw [heq, parse_query job'] at hdocument
  exact Job.document_injective (Except.ok.inj hdocument).symm

/-! ## Strings and shapes -/

/-- Documents that differ in nothing but what the strings among their values are. -/
inductive SameShape : Json → Json → Prop where
  | string (s s' : String) : SameShape (.string s) (.string s')
  | bool (b : Bool) : SameShape (.bool b) (.bool b)
  | array {items items' : List Json} (below : List.Forall₂ SameShape items items') :
      SameShape (.array items) (.array items')
  | object {members members' : List (String × Json)}
      (keys : members.map Prod.fst = members'.map Prod.fst)
      (below : List.Forall₂ SameShape (members.map Prod.snd) (members'.map Prod.snd)) :
      SameShape (.object members) (.object members')

theorem SameShape.function (code code' : Code) (h : code.toMember.1 = code'.toMember.1)
    (keep : Bool) : SameShape (functionJson code keep) (functionJson code' keep) := by
  have hcode : SameShape code.toMember.2 code'.toMember.2 := by
    cases code <;> cases code' <;> exact .string _ _
  refine .object (by simp [h]) ?_
  exact .cons (.bool keep) (.cons (.string _ _) (.cons hcode .nil))

inductive Inputs.Alike : Inputs → Inputs → Prop where
  | bucket (b b' : String) : Alike (bucket b) (bucket b')
  | keys {pairs pairs' : List (String × String)} (length : pairs.length = pairs'.length) :
      Alike (keys pairs) (keys pairs')

structure Job.Alike (job job' : Job) : Prop where
  inputs : job.inputs.Alike job'.inputs
  phases : List.Forall₂ SameShape (job.phases.map Phase.toJson) (job'.phases.map Phase.toJson)

section Alike

variable {job job' : Job}

theorem Job.Alike.addPhase (h : job.Alike job') {phase phase' : Phase}
    (hphase : SameShape phase.toJson phase'.toJson) :
    (job.addPhase phase).Alike (job'.addPhase phase') := by
  refine ⟨h.inputs, ?_⟩
  simp only [Job.addPhase, List.map_append, List.map_singleton]
  exact List.rel_append h.phases (.cons hphase .nil)

theorem Job.Alike.add (h : job.Alike job') (b k b' k' : String) :
    (job.add b k).Alike (job'.add b' k') := by
  obtain ⟨inputs, phases⟩ := job
  obtain ⟨inputs', phases'⟩ := job'
  obtain ⟨hinputs, hphases⟩ := h
  cases hinputs with
  | bucket c c' => exact ⟨.keys rfl, hphases⟩
  | keys hlength => exact ⟨.keys (by simpa using hlength), hphases⟩

theorem Job.Alike.call (h : job.Alike job') {c c' : Call} (hcall : c.Alike c') :
    (job.call c).Alike (job'.call c') := by
  have hmember {name : String} {j j' : Json} (hj : SameShape j j') :
      SameShape (.object [(name, j)]) (.object [(name, j')]) :=
    .object rfl (.cons hj .nil)
  cases hcall with
  | add b k b' k' => exact h.add b k b' k'
  | addBucket b b' => exact ⟨.bucket b b', h.phases⟩
  | map s s' keep => exact h.addPhase (hmember (.function (.source s) (.source s') rfl keep))
  | mapObjectValue keep => exact h.addPhase (hmember (.function (.named _) (.named _) rfl keep))
  | reduce s s' keep => exact h.addPhase (hmember (.function (.source s) (.source s') rfl keep))
  | linkBucket b b' keep =>
      exact h.addPhase (hmember (.object rfl (.cons (.string _ _) (.cons (.bool keep) .nil))))

/-- Calls that are alike leave jobs alike. -/
theorem Job.Alike.calls {calls calls' : List Call} (hcalls : List.Forall₂ Call.Alike calls calls')
    (h : job.Alike job') : (calls.foldl Job.call job).Alike (calls'.foldl Job.call job') := by
  induction hcalls generalizing job job' with
  | nil => exact h
  | cons hcall _ ih => exact ih (h.call hcall)

theorem Inputs.Alike.sameShape {inputs inputs' : Inputs} (h : inputs.Alike inputs') :
    SameShape inputs.toJson inputs'.toJson := by
  cases h with
  | bucket b b' => exact .string b b'
  | keys hlength =>
      have hpair (p p' : String × String) :
          SameShape (.array [.string p.1, .string p.2]) (.array [.string p'.1, .string p'.2]) :=
        .array (.cons (.string _ _) (.cons (.string _ _) .nil))
      refine .array (List.forall₂_map_left_iff.mpr (List.forall₂_map_right_iff.mpr ?_))
      exact List.forall₂_iff_zip.mpr ⟨hlength, fun _ ↦ hpair _ _⟩

theorem Job.Alike.document (h : job.Alike job') : SameShape job.document job'.document :=
  .object rfl (.cons h.inputs.sameShape (.cons (.array h.phases) .nil))

end Alike

/-! ## Every job -/

/-- Whatever calls are made, the text of the job is JSON that says the inputs and the phases they
ask for, and says them apart from those of any other calls; what their strings are changes nothing
of its shape. -/
theorem query_tells (calls : List Call) :
    Json.parse (Utf8.encode (built calls).query) =
        .ok (.object
          [("inputs", (askedInputs calls).toJson),
            ("query", .array ((calls.filterMap Call.phase?).map Phase.toJson))]) ∧
      (∀ calls', (built calls).query = (built calls').query ↔
        askedInputs calls = askedInputs calls' ∧
          calls.filterMap Call.phase? = calls'.filterMap Call.phase?) ∧
      ∀ calls', List.Forall₂ Call.Alike calls calls' →
        ∃ j j', Json.parse (Utf8.encode (built calls).query) = .ok j ∧
          Json.parse (Utf8.encode (built calls').query) = .ok j' ∧ SameShape j j' := by
  refine ⟨?_, fun calls' ↦ ?_, fun calls' hcalls ↦ ?_⟩
  · rw [parse_query, Job.document, built_inputs, built_phases]
  · rw [← built_inputs, ← built_inputs, ← built_phases, ← built_phases]
    constructor
    · intro htext
      rw [Job.query_injective htext]
      exact ⟨rfl, rfl⟩
    · rintro ⟨hinputs, hphases⟩
      rw [Job.query, hinputs, hphases, Job.query]
  · have hempty : Job.Alike {} {} := ⟨.keys rfl, .nil⟩
    exact ⟨_, _, parse_query _, parse_query _, (hempty.calls hcalls).document⟩

end MapReduce
end ReplicaClient
