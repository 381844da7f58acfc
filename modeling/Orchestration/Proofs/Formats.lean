import Orchestration.Definition
import Orchestration.Function
import Orchestration.Json.Access
import Orchestration.Message
import Orchestration.Proofs.Spelling

/-!
# The formats of messages and definitions

Whatever the engine and its collaborators tell one another is written as a document and read off
one. Each format is faithful: what is written is read again, also when its members come in another
order or with others among them that the format does not know (`Format.round_trip`). All values of
the types of the engine can be written; since these hold integers and data of any kind here, it is
said of each type which values it can have, and these are the ones that can be read.
-/

namespace Orchestration

open Json (Schema Faithful Spells Rearranges IsInt32 IsNat64 IsData)
open Json.Decoder (record_of_spells named_of_rearranges tagged_of_rearranges)
open Json.Decoder.Record (fits_required fits_withDefault fits_leftOut)

/-! ## Words and empty data -/

theorem RunStatus.faithful {σ : Schema} : Faithful σ toJson decode fun _ ↦ True :=
  .word ofText?_text

theorem DeploymentState.faithful {σ : Schema} : Faithful σ toJson decode fun _ ↦ True :=
  .word fun d ↦ congrArg some (ofText_text d)

theorem isData_nil : IsData [] := rfl

theorem bind_eq_some_of {α β : Type} {o : Option α} {f : α → Option β} {a : α} {b : β}
    (ho : o = some a) (hf : f a = some b) : (o >>= f) = some b := by
  rw [ho]
  exact hf

/-! ## Messages -/

namespace StepResult

/-- The values that a result can have. -/
structure Fits (m : StepResult) : Prop where
  inputData : IsData m.inputData
  outputData : IsData m.outputData
  attempt : ∀ n ∈ m.attempt, IsInt32 n

def schema : Schema :=
  .record ["stepInstanceId", "workflowInstanceId", "runStatus", "failureReason", "callBackUrl",
    "inputData", "outputData", "attempt"] fun _ ↦ .data

theorem faithful : Faithful schema toJson decode Fits where
  fits {j m} h := by
    simp only [decode, Option.bind_eq_bind, Option.bind_eq_some_iff, Option.pure_def,
      Option.some.injEq] at h
    obtain ⟨r, -, _, -, _, -, _, -, _, -, _, -, input, hinput, output, houtput, attempt, hattempt,
      rfl⟩ := h
    exact ⟨fits_withDefault .object isData_nil hinput, fits_withDefault .object isData_nil houtput,
      fits_leftOut (σ := .data) .int32 rfl hattempt⟩
  reads {m} hm j h := by
    obtain ⟨r, hr, hfields⟩ := record_of_spells h (Dict.sorted_ofList _).nodup
    refine bind_eq_some_of hr ?_
    refine bind_eq_some_of (hfields.required (a := m.stepInstanceId) .uid (by simp)
      (by simp) trivial) ?_
    refine bind_eq_some_of
      (hfields.required (a := m.workflowInstanceId) .uid (by simp) (by simp) trivial) ?_
    refine bind_eq_some_of
      (hfields.required (a := m.runStatus) RunStatus.faithful (by simp) (by simp) trivial) ?_
    refine bind_eq_some_of
      (hfields.leftOut (o := m.failureReason) (.optional .text rfl) (by simp) (by simp) (by simp))
        ?_
    refine bind_eq_some_of
      (hfields.leftOut (o := m.callBackUrl) (.optional .text rfl) (by simp) (by simp) (by simp)) ?_
    refine bind_eq_some_of
      (hfields.withDefault (a := m.inputData) .object (by simp) (by simp) hm.inputData) ?_
    refine bind_eq_some_of
      (hfields.withDefault (a := m.outputData) .object (by simp) (by simp) hm.outputData) ?_
    exact bind_eq_some_of
      (hfields.leftOut (o := m.attempt) (.optional .int32 rfl) (by simp) (by simp) hm.attempt) rfl

end StepResult

namespace WorkRequest

/-- The values that a work request can have. -/
structure Fits (w : WorkRequest) : Prop where
  inputData : IsData w.inputData
  outputData : IsData w.outputData
  attempt : IsInt32 w.attempt

def schema : Schema :=
  .record ["stepInstanceId", "workflowInstanceId", "runStatus", "serviceUrl", "functionName",
    "functionType", "cpuRequest", "memoryRequest", "inputData", "outputData", "attempt"]
    fun _ ↦ .data

theorem faithful : Faithful schema toJson decode Fits where
  fits {j w} h := by
    simp only [decode, Option.bind_eq_bind, Option.bind_eq_some_iff, Option.pure_def,
      Option.some.injEq] at h
    obtain ⟨r, -, _, -, _, -, _, -, _, -, _, -, _, -, _, -, _, -, input, hinput, output, houtput,
      attempt, hattempt, rfl⟩ := h
    exact ⟨fits_required .object hinput, fits_required .object houtput,
      fits_required (σ := .data) .int32 hattempt⟩
  reads {w} hw j h := by
    obtain ⟨r, hr, hfields⟩ := record_of_spells h (Dict.sorted_ofList _).nodup
    refine bind_eq_some_of hr ?_
    refine bind_eq_some_of (hfields.required (a := w.stepInstanceId) .uid (by simp)
      (by simp) trivial) ?_
    refine bind_eq_some_of
      (hfields.required (a := w.workflowInstanceId) .uid (by simp) (by simp) trivial) ?_
    refine bind_eq_some_of
      (hfields.required (a := w.runStatus) RunStatus.faithful (by simp) (by simp) trivial) ?_
    refine bind_eq_some_of
      (hfields.optional (o := w.serviceUrl) .optionalText (by simp) (by simp) trivial) ?_
    refine bind_eq_some_of (hfields.required (a := w.functionName) .text (by simp)
      (by simp) trivial) ?_
    refine bind_eq_some_of (hfields.required (a := w.functionType) .text (by simp)
      (by simp) trivial) ?_
    refine bind_eq_some_of
      (hfields.optional (o := w.cpuRequest) .optionalText (by simp) (by simp) trivial) ?_
    refine bind_eq_some_of
      (hfields.optional (o := w.memoryRequest) .optionalText (by simp) (by simp) trivial) ?_
    refine bind_eq_some_of
      (hfields.required (a := w.inputData) .object (by simp) (by simp) hw.inputData) ?_
    refine bind_eq_some_of
      (hfields.required (a := w.outputData) .object (by simp) (by simp) hw.outputData) ?_
    exact bind_eq_some_of (hfields.required (a := w.attempt) .int32 (by simp) (by simp) hw.attempt)
      rfl

end WorkRequest

namespace DeploymentOutcome

def schema : Schema := .record ["workflowInstanceId", "ready", "failureReason"] fun _ ↦ .data

theorem faithful : Faithful schema toJson decode fun _ ↦ True where
  fits _ := trivial
  reads {o} _ j h := by
    obtain ⟨r, hr, hfields⟩ := record_of_spells h (Dict.sorted_ofList _).nodup
    refine bind_eq_some_of hr ?_
    refine bind_eq_some_of
      (hfields.required (a := o.workflowInstanceId) .uid (by simp) (by simp) trivial) ?_
    refine bind_eq_some_of (hfields.required (a := o.ready) .bool (by simp) (by simp) trivial) ?_
    exact bind_eq_some_of
      (hfields.leftOut (o := o.failureReason) (.optional .text rfl) (by simp) (by simp) (by simp))
        rfl

end DeploymentOutcome

namespace PushRequest

/-- The values that a call can have. -/
structure Fits (p : PushRequest) : Prop where
  inputData : IsData p.inputData

def schema : Schema := .record ["inputData", "callbackUrl", "failureReason"] fun _ ↦ .data

theorem faithful : Faithful schema toJson decode Fits where
  fits {j p} h := by
    simp only [decode, Option.bind_eq_bind, Option.bind_eq_some_iff, Option.pure_def,
      Option.some.injEq] at h
    obtain ⟨r, -, input, hinput, _, -, _, -, rfl⟩ := h
    exact ⟨fits_required .object hinput⟩
  reads {p} hp j h := by
    obtain ⟨r, hr, hfields⟩ := record_of_spells h (Dict.sorted_ofList _).nodup
    refine bind_eq_some_of hr ?_
    refine bind_eq_some_of (hfields.required (a := p.inputData) .object (by simp)
      (by simp) hp.inputData) ?_
    refine bind_eq_some_of
      (hfields.required (a := p.callbackUrl) .text (by simp) (by simp) trivial) ?_
    exact bind_eq_some_of
      (hfields.leftOut (o := p.failureReason) (.optional .text rfl) (by simp) (by simp) (by simp))
        rfl

end PushRequest

namespace CallbackBody

/-- The values that a callback can have. -/
structure Fits (b : CallbackBody) : Prop where
  inputData : IsData b.inputData
  outputData : IsData b.outputData

def schema : Schema :=
  .record ["runStatus", "failureReason", "inputData", "outputData"] fun _ ↦ .data

theorem faithful : Faithful schema toJson decode Fits where
  fits {j b} h := by
    simp only [decode, Option.bind_eq_bind, Option.bind_eq_some_iff, Option.pure_def,
      Option.some.injEq] at h
    obtain ⟨r, -, _, -, _, -, input, hinput, output, houtput, rfl⟩ := h
    exact ⟨fits_withDefault .object isData_nil hinput, fits_withDefault .object isData_nil houtput⟩
  reads {b} hb j h := by
    obtain ⟨r, hr, hfields⟩ := record_of_spells h (Dict.sorted_ofList _).nodup
    refine bind_eq_some_of hr ?_
    refine bind_eq_some_of
      (hfields.required (a := b.runStatus) RunStatus.faithful (by simp) (by simp) trivial) ?_
    refine bind_eq_some_of
      (hfields.withDefault (a := b.failureReason) .optionalText (by simp) (by simp) trivial) ?_
    refine bind_eq_some_of
      (hfields.withDefault (a := b.inputData) .object (by simp) (by simp) hb.inputData) ?_
    exact bind_eq_some_of
      (hfields.withDefault (a := b.outputData) .object (by simp) (by simp) hb.outputData) rfl

end CallbackBody

/-! ## Functions -/

namespace FunctionInfo

def schema : Schema :=
  .record ["uid", "name", "type", "deploymentState", "lazyDeployment", "serviceUrl", "cpuRequest",
    "memoryRequest"] fun _ ↦ .data

theorem faithful : Faithful schema toJson decode fun _ ↦ True where
  fits _ := trivial
  reads {f} _ j h := by
    obtain ⟨r, hr, hfields⟩ := record_of_spells h (Dict.sorted_ofList _).nodup
    refine bind_eq_some_of hr ?_
    refine bind_eq_some_of (hfields.required (a := f.uid) .uid (by simp) (by simp) trivial) ?_
    refine bind_eq_some_of (hfields.required (a := f.name) .text (by simp) (by simp) trivial) ?_
    refine bind_eq_some_of
      (hfields.withDefault (a := f.functionType) .text (by simp) (by simp) trivial) ?_
    refine bind_eq_some_of
      (hfields.required (a := f.deploymentState) DeploymentState.faithful (by simp)
        (by simp) trivial) ?_
    refine bind_eq_some_of
      (hfields.withDefault (a := f.lazyDeployment) .bool (by simp) (by simp) trivial) ?_
    refine bind_eq_some_of
      (hfields.withDefault (a := f.serviceUrl) .optionalText (by simp) (by simp) trivial) ?_
    refine bind_eq_some_of
      (hfields.withDefault (a := f.cpuRequest) .optionalText (by simp) (by simp) trivial) ?_
    exact bind_eq_some_of
      (hfields.withDefault (a := f.memoryRequest) .optionalText (by simp) (by simp) trivial) rfl

end FunctionInfo

/-! ## Control structures -/

namespace CaseTarget

/-- The names of the fields that belong to a tag. -/
def fieldNames (tag : String) : List String :=
  match Tag.ofText? tag with
  | some .function => ["functionRef"]
  | some .subWorkflow => ["subWorkflowRef"]
  | none => []

def schema : Schema := .union "type" fieldNames fun _ ↦ .data

theorem faithful (byIndex : Bool) : Faithful schema toJson (decode byIndex) fun _ ↦ True where
  fits _ := trivial
  reads {c} _ j h := by
    cases c with
    | function f =>
      obtain ⟨members, rfl, hspelled⟩ := Json.spells_obj_iff.1 h
      have htag : Dict.get? (Dict.ofList [("type", .str "FUNCTION"), ("functionRef", f.toJson)])
          "type" = some (.str "FUNCTION") := by simp
      obtain ⟨rest, r, htagged, hr, hfields⟩ := tagged_of_rearranges ["functionRef"] hspelled
        (Dict.sorted_ofList _).nodup htag (.inl rfl)
          (fun name hname ↦ .inr ⟨_, htag, hname⟩) (by simp)
      refine bind_eq_some_of htagged ?_
      refine bind_eq_some_of (a := Tag.function) rfl ?_
      refine bind_eq_some_of hr ?_
      exact bind_eq_some_of (hfields.required (a := f) .uid (by simp) (by simp) trivial) rfl
    | subWorkflow w =>
      obtain ⟨members, rfl, hspelled⟩ := Json.spells_obj_iff.1 h
      have htag : Dict.get?
          (Dict.ofList [("type", .str "SUB_WORKFLOW"), ("subWorkflowRef", w.toJson)]) "type" =
          some (.str "SUB_WORKFLOW") := by simp
      obtain ⟨rest, r, htagged, hr, hfields⟩ := tagged_of_rearranges ["subWorkflowRef"] hspelled
        (Dict.sorted_ofList _).nodup htag (.inl rfl)
          (fun name hname ↦ .inr ⟨_, htag, hname⟩) (by simp)
      refine bind_eq_some_of htagged ?_
      refine bind_eq_some_of (a := Tag.subWorkflow) rfl ?_
      refine bind_eq_some_of hr ?_
      exact bind_eq_some_of (hfields.required (a := w) .uid (by simp) (by simp) trivial) rfl

end CaseTarget

/-- The names of the fields that belong to a control structure. -/
def ControlStructure.fieldNames : ControlStructure → List String
  | .simple => ["functionRef"]
  | .switch => ["switchExpression", "decisionCases"]
  | .doWhile => ["functionRef", "stopCondition"]
  | .subWorkflow => ["subWorkflowRef"]

namespace StepStructure

/-- The values that a control structure can have. -/
def Fits : StepStructure → Prop
  | .switch _ cases => cases.Sorted
  | .simple _ | .doWhile .. | .subWorkflow _ => True

/-- The names of the fields that belong to a tag. -/
def fieldNames (tag : String) : List String :=
  ((ControlStructure.ofText? tag).map (·.fieldNames)).getD []

def field (name : String) : Schema :=
  if name = "decisionCases" then .dict CaseTarget.schema else .data

def schema : Schema := .union "controlStructure" fieldNames field

variable {s : StepStructure} {members members' : List (String × Json)} {Defined : String → Prop}

theorem fieldNames_text (c : ControlStructure) : fieldNames c.text = c.fieldNames := by
  rw [fieldNames, ControlStructure.ofText?_text, Option.map_some, Option.getD_some]

/-- A control structure is read off any spelling of its members, whatever stands beside them. -/
theorem decode_of_rearranges (byIndex : Bool) (hs : s.Fits)
    (h : Rearranges field Defined members members') (hnodup : (members.map Prod.fst).Nodup)
    (hdefined : ∀ name ∈ "controlStructure" :: s.control.fieldNames, Defined name)
    (hmembers : ∀ name ∈ "controlStructure" :: s.control.fieldNames,
      Dict.get? members name = Dict.get? s.toMembers name) :
    decode byIndex (.obj members') = some s := by
  obtain ⟨htag, hget⟩ := List.forall_mem_cons.1 hmembers
  obtain ⟨hdefinedTag, hdefinedFields⟩ := List.forall_mem_cons.1 hdefined
  have hother : "controlStructure" ∉ s.control.fieldNames := by
    cases s with
    | simple | switch | doWhile | subWorkflow => simp [control, ControlStructure.fieldNames]
  obtain ⟨rest, r, htagged, hr, hfields⟩ := tagged_of_rearranges s.control.fieldNames h hnodup htag
    hdefinedTag hdefinedFields hother
  refine bind_eq_some_of htagged ?_
  refine bind_eq_some_of (a := s.control) (ControlStructure.ofText?_text s.control) ?_
  cases s with
  | simple f =>
    refine bind_eq_some_of hr ?_
    exact bind_eq_some_of (hfields.required (a := f) .uid (.head _) (hget _ (.head _)) trivial) rfl
  | switch e cases =>
    refine bind_eq_some_of hr ?_
    refine bind_eq_some_of (hfields.required (a := e) .text (.head _) (hget _ (.head _)) trivial) ?_
    exact bind_eq_some_of (hfields.required (a := cases) (.dict (CaseTarget.faithful true))
      (.tail _ (.head _)) (hget _ (.tail _ (.head _))) ⟨hs, fun _ _ ↦ trivial⟩) rfl
  | doWhile f stop =>
    refine bind_eq_some_of hr ?_
    refine bind_eq_some_of (hfields.required (a := f) .uid (.head _) (hget _ (.head _)) trivial) ?_
    exact bind_eq_some_of (hfields.required (a := stop) .text (.tail _ (.head _))
      (hget _ (.tail _ (.head _))) trivial) rfl
  | subWorkflow w =>
    refine bind_eq_some_of hr ?_
    exact bind_eq_some_of (hfields.required (a := w) .uid (.head _) (hget _ (.head _)) trivial) rfl

theorem fits_of_decode {byIndex : Bool} {j : Json} (h : decode byIndex j = some s) : s.Fits := by
  simp only [decode, Option.bind_eq_bind, Option.bind_eq_some_iff] at h
  obtain ⟨⟨tag, rest⟩, -, control, -, h⟩ := h
  cases control with
  | switch =>
    simp only [Option.bind_eq_some_iff, Option.pure_def, Option.some.injEq] at h
    obtain ⟨r, -, e, -, cases, hcases, rfl⟩ := h
    exact (fits_required (.dict (CaseTarget.faithful true)) hcases).1
  | simple | subWorkflow =>
    simp only [Option.bind_eq_some_iff, Option.pure_def, Option.some.injEq] at h
    obtain ⟨r, -, _, -, rfl⟩ := h
    trivial
  | doWhile =>
    simp only [Option.bind_eq_some_iff, Option.pure_def, Option.some.injEq] at h
    obtain ⟨r, -, _, -, _, -, rfl⟩ := h
    trivial

theorem names_toMembers (s : StepStructure) :
    s.toMembers.map Prod.fst = "controlStructure" :: s.control.fieldNames := by
  cases s with
  | simple | switch | doWhile | subWorkflow => rfl

theorem names_nodup (s : StepStructure) : (s.toMembers.map Prod.fst).Nodup := by
  rw [names_toMembers]
  cases s.control with
  | simple | switch | doWhile | subWorkflow => decide

theorem faithful (byIndex : Bool) : Faithful schema toJson (decode byIndex) Fits where
  fits := fits_of_decode
  reads {s} hs j h := by
    obtain ⟨members, rfl, hspelled⟩ := Json.spells_obj_iff.1 h
    have hget := Dict.get?_ofList_of_nodup s.names_nodup
    refine decode_of_rearranges byIndex hs hspelled (Dict.sorted_ofList _).nodup
      (List.forall_mem_cons.2 ⟨.inl rfl, fun name hname ↦ ?_⟩) fun name _ ↦ hget name
    exact .inr ⟨s.control.text, hget "controlStructure", by rwa [fieldNames_text]⟩

end StepStructure

/-! ## Definitions -/

namespace StepDefinition

/-- The values that the definition of a step can have. -/
structure Fits (d : StepDefinition) : Prop where
  executionOrder : IsInt32 d.executionOrder
  retryCount : IsInt32 d.retryCount
  inputData : IsData d.inputData
  shape : d.shape.Fits

def schema : Schema :=
  .union "controlStructure" (fun tag ↦ ownNames ++ StepStructure.fieldNames tag) StepStructure.field

/-- The members of a step that do not belong to its control structure. -/
def ownMembers (d : StepDefinition) : List (String × Json) :=
  [("uid", d.uid.toJson), ("name", .str d.name), ("executionOrder", .int d.executionOrder),
    ("retryCount", .int d.retryCount), ("inputData", .obj d.inputData)]

theorem names_nodup (d : StepDefinition) :
    ((d.ownMembers ++ d.shape.toMembers).map Prod.fst).Nodup := by
  rw [List.map_append, StepStructure.names_toMembers]
  show (ownNames ++ _).Nodup
  cases d.shape.control with
  | simple | switch | doWhile | subWorkflow => decide

theorem faithful : Faithful schema toJson decode Fits where
  fits {j d} h := by
    cases j with
    | obj members =>
      simp only [decode, Option.bind_eq_bind, Option.bind_eq_some_iff, Option.pure_def,
        Option.some.injEq] at h
      obtain ⟨r, -, others, -, _, -, _, -, order, horder, retries, hretries, input, hinput, shape,
        hshape, rfl⟩ := h
      exact ⟨fits_required (σ := .data) .int32 horder,
        fits_withDefault (σ := .data) .int32 (by decide) hretries,
        fits_withDefault .object isData_nil hinput, StepStructure.fits_of_decode hshape⟩
    | _ => cases h
  reads {d} hd j h := by
    have hjson : d.toJson = .obj (Dict.ofList (d.ownMembers ++ d.shape.toMembers)) := rfl
    rw [hjson] at h
    obtain ⟨members, rfl, hspelled⟩ := Json.spells_obj_iff.1 h
    have hget : ∀ name, Dict.get? (Dict.ofList (d.ownMembers ++ d.shape.toMembers)) name =
        (Dict.get? d.ownMembers name).or (Dict.get? d.shape.toMembers name) := fun name ↦ by
      rw [Dict.get?_ofList_of_nodup d.names_nodup, Dict.get?_append]
    have hnodup := (Dict.sorted_ofList (d.ownMembers ++ d.shape.toMembers)).nodup
    have hdefined : ∀ name ∈ ownNames ++ d.shape.control.fieldNames, schema.Defines
        (Dict.ofList (d.ownMembers ++ d.shape.toMembers)) name := fun name hname ↦
      .inr ⟨d.shape.control.text, hget _, by rwa [← StepStructure.fieldNames_text] at hname⟩
    obtain ⟨r, hr, hfields⟩ := named_of_rearranges hspelled hnodup
      fun name hname ↦ hdefined name (List.mem_append_left _ hname)
    refine bind_eq_some_of hr ?_
    refine bind_eq_some_of (a := members.filter fun m ↦ !ownNames.contains m.1) rfl ?_
    refine bind_eq_some_of (hfields.required (a := d.uid) .uid (by decide) (hget _) trivial) ?_
    refine bind_eq_some_of (hfields.required (a := d.name) .text (by decide) (hget _) trivial) ?_
    refine bind_eq_some_of
      (hfields.required (a := d.executionOrder) .int32 (by decide) (hget _) hd.executionOrder) ?_
    refine bind_eq_some_of
      (hfields.withDefault (a := d.retryCount) .int32 (by decide) (hget _) hd.retryCount) ?_
    refine bind_eq_some_of
      (hfields.withDefault (a := d.inputData) .object (by decide) (hget _) hd.inputData) ?_
    -- The other members are those of the control structure.
    have hothers := hspelled.filter (p := fun name ↦ !ownNames.contains name) fun _ _ hname ↦ hname
    refine bind_eq_some_of (StepStructure.decode_of_rearranges true hd.shape hothers
      (hnodup.sublist (List.filter_sublist.map _)) ?_ ?_) rfl
    · refine List.forall_mem_cons.2 ⟨.inl rfl, fun name hname ↦ ?_⟩
      exact hdefined name (List.mem_append_right _ hname)
    · intro name hname
      have hnames := d.names_nodup
      rw [List.map_append, StepStructure.names_toMembers] at hnames
      have hother : name ∉ d.ownMembers.map Prod.fst :=
        fun hown ↦ List.disjoint_of_nodup_append hnames hown hname
      have hown : ownNames.contains name = false := by
        rw [← Bool.not_eq_true, List.contains_iff_mem]
        exact hother
      have hnone : Dict.get? d.ownMembers name = none :=
        Dict.get?_eq_none_iff.2 fun e he hkey ↦ hother (hkey ▸ List.mem_map_of_mem he)
      rw [Dict.get?_filter (p := fun name ↦ !ownNames.contains name)
        _ (by rw [hown]; rfl), hget, hnone, Option.none_or]

end StepDefinition

namespace WorkflowDefinition

/-- The values that the definition of a workflow can have. -/
structure Fits (w : WorkflowDefinition) : Prop where
  steps : ∀ d ∈ w.steps, d.Fits
  timeout : ∀ n ∈ w.timeout, IsNat64 n

def field (name : String) : Schema := if name = "steps" then .list StepDefinition.schema else .data

def schema : Schema :=
  .record ["uid", "name", "description", "steps", "restartPolicy", "timeout"] field

theorem faithful : Faithful schema toJson decode Fits where
  fits {j w} h := by
    simp only [decode, Option.bind_eq_bind, Option.bind_eq_some_iff, Option.pure_def,
      Option.some.injEq] at h
    obtain ⟨r, -, _, -, _, -, _, -, steps, hsteps, _, -, timeout, htimeout, rfl⟩ := h
    exact ⟨fits_withDefault (.list StepDefinition.faithful) (by simp) hsteps,
      fits_leftOut (σ := .data) .nat64 rfl htimeout⟩
  reads {w} hw j h := by
    obtain ⟨r, hr, hfields⟩ := record_of_spells h (Dict.sorted_ofList _).nodup
    refine bind_eq_some_of hr ?_
    refine bind_eq_some_of (hfields.required (a := w.uid) .uid (by simp) (by simp) trivial) ?_
    refine bind_eq_some_of (hfields.required (a := w.name) .text (by simp) (by simp) trivial) ?_
    refine bind_eq_some_of
      (hfields.withDefault (a := w.description) .optionalText (by simp) (by simp) trivial) ?_
    refine bind_eq_some_of (hfields.withDefault (a := w.steps)
      (.list StepDefinition.faithful) (by simp) (by simp) hw.steps) ?_
    refine bind_eq_some_of (hfields.withDefault (a := w.restartPolicy)
      (.word RestartPolicy.ofText?_text) (by simp) (by simp) trivial) ?_
    exact bind_eq_some_of
      (hfields.withDefault (a := w.timeout) (.optional .nat64 rfl) (by simp) (by simp) hw.timeout)
        rfl

end WorkflowDefinition

/-! ## All formats -/

/-- The formats that values are exchanged in. -/
inductive Format where
  | stepResult
  | workRequest
  | deploymentOutcome
  | pushRequest
  | callbackBody
  | functionInfo
  | stepStructure
  | stepDefinition
  | workflowDefinition

namespace Format

abbrev Value : Format → Type
  | stepResult => StepResult
  | workRequest => WorkRequest
  | deploymentOutcome => DeploymentOutcome
  | pushRequest => PushRequest
  | callbackBody => CallbackBody
  | functionInfo => FunctionInfo
  | stepStructure => StepStructure
  | stepDefinition => StepDefinition
  | workflowDefinition => WorkflowDefinition

def encode : (f : Format) → f.Value → Json
  | stepResult => StepResult.toJson
  | workRequest => WorkRequest.toJson
  | deploymentOutcome => DeploymentOutcome.toJson
  | pushRequest => PushRequest.toJson
  | callbackBody => CallbackBody.toJson
  | functionInfo => FunctionInfo.toJson
  | stepStructure => StepStructure.toJson
  | stepDefinition => StepDefinition.toJson
  | workflowDefinition => WorkflowDefinition.toJson

def decode : (f : Format) → Json.Decoder f.Value
  | stepResult => StepResult.decode
  | workRequest => WorkRequest.decode
  | deploymentOutcome => DeploymentOutcome.decode
  | pushRequest => PushRequest.decode
  | callbackBody => CallbackBody.decode
  | functionInfo => FunctionInfo.decode
  | stepStructure => StepStructure.decode false
  | stepDefinition => StepDefinition.decode
  | workflowDefinition => WorkflowDefinition.decode

/-- What the members of the documents of a format mean. -/
def schema : Format → Schema
  | stepResult => StepResult.schema
  | workRequest => WorkRequest.schema
  | deploymentOutcome => DeploymentOutcome.schema
  | pushRequest => PushRequest.schema
  | callbackBody => CallbackBody.schema
  | functionInfo => FunctionInfo.schema
  | stepStructure => StepStructure.schema
  | stepDefinition => StepDefinition.schema
  | workflowDefinition => WorkflowDefinition.schema

/-- The values that values of a format can have. -/
def Fits : (f : Format) → f.Value → Prop
  | stepResult => StepResult.Fits
  | workRequest => WorkRequest.Fits
  | deploymentOutcome => fun _ ↦ True
  | pushRequest => PushRequest.Fits
  | callbackBody => CallbackBody.Fits
  | functionInfo => fun _ ↦ True
  | stepStructure => StepStructure.Fits
  | stepDefinition => StepDefinition.Fits
  | workflowDefinition => WorkflowDefinition.Fits

theorem faithful : (f : Format) → Faithful f.schema f.encode f.decode f.Fits
  | stepResult => StepResult.faithful
  | workRequest => WorkRequest.faithful
  | deploymentOutcome => DeploymentOutcome.faithful
  | pushRequest => PushRequest.faithful
  | callbackBody => CallbackBody.faithful
  | functionInfo => FunctionInfo.faithful
  | stepStructure => StepStructure.faithful false
  | stepDefinition => StepDefinition.faithful
  | workflowDefinition => WorkflowDefinition.faithful

/-- **All formats can be read back.** The values that fit a format are those that can be read at
all. Each of them is read off its document, and off any document that differs from this one in the
order of members, or in members whose names have no meaning where they stand. -/
theorem round_trip (f : Format) : (∀ v, f.Fits v ↔ ∃ j, f.decode j = some v) ∧
    ∀ v, f.Fits v → f.decode (f.encode v) = some v ∧
      ∀ j, Spells f.schema (f.encode v) j → f.decode j = some v :=
  ⟨fun _ ↦ f.faithful.fits_iff, fun _ hv ↦
    ⟨f.faithful.decode_encode hv, fun _ hj ↦ f.faithful.reads hv hj⟩⟩

/-- A workflow with steps of all control structures. -/
def allStructures : WorkflowDefinition :=
  { uid := .ofNat 1
    name := "all structures"
    description := some "one step of each"
    restartPolicy := .onFailure
    timeout := some (pow2 64 - 1)
    steps :=
      [{ uid := .ofNat 2
         name := "call"
         executionOrder := -1
         retryCount := 3
         inputData :=
           [("a", .arr [.null, .obj [("b", .float 0.5), ("c", .int (-7))]]), ("z", .bool true)]
         shape := .simple (.ofNat 9) },
        { uid := .ofNat 3
          name := "decide"
          executionOrder := 2
          shape := .switch "[call.output.x]"
            [("default", .subWorkflow (.ofNat 5)), ("no", .function (.ofNat 9))] },
        { uid := .ofNat 4
          name := "repeat"
          executionOrder := 3
          shape := .doWhile (.ofNat 9) "runCount > 1" },
        { uid := .ofNat 6
          name := "delegate"
          executionOrder := 4
          shape := .subWorkflow (.ofNat 5) }] }

/-- Its document with the members in reverse order and with another member among them. -/
def rewritten : Json := .obj (("color", .str "red") :: allStructures.toJson.members.reverse)

theorem round_trip_of_allStructures :
    Fits workflowDefinition allStructures ∧
    Spells (schema workflowDefinition) (encode workflowDefinition allStructures) rewritten ∧
    decode workflowDefinition (encode workflowDefinition allStructures) = some allStructures ∧
    decode workflowDefinition rewritten = some allStructures := by
  have hfits : Fits workflowDefinition allStructures := by
    refine ⟨?_, by decide⟩
    show ∀ d ∈ [_, _, _, _], StepDefinition.Fits d
    simp only [List.forall_mem_cons]
    exact ⟨⟨by decide, by decide, rfl, trivial⟩,
      ⟨by decide, by decide, rfl, .cons (by decide) (.cons (by decide) .nil)⟩,
      ⟨by decide, by decide, rfl, trivial⟩, ⟨by decide, by decide, rfl, trivial⟩, nofun⟩
  have hspells : Spells (schema workflowDefinition) (encode workflowDefinition allStructures)
      rewritten := by
    refine ⟨_, allStructures.toJson.members, [("color", .str "red")], rfl, ?_, .refl _ _, ?_⟩
    · exact ((List.reverse_perm _).cons _).trans (List.perm_append_singleton _ _).symm
    · intro e he
      rw [List.mem_singleton.1 he]
      show "color" ∉ ["uid", "name", "description", "steps", "restartPolicy", "timeout"]
      decide
  obtain ⟨-, hread⟩ := round_trip workflowDefinition
  exact ⟨hfits, hspells, (hread _ hfits).1, (hread _ hfits).2 _ hspells⟩

end Format

end Orchestration
