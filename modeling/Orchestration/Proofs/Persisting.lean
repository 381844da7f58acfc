import Orchestration.Proofs.Formats
import Orchestration.Proofs.StandIn

/-!
# Records that come back from the database

A record goes into the database as a row: an insert gives the columns that it names their values by
position, and a select takes columns out again by name. So a value comes back as what it was only if
it stands at the place of its column, is of the kind that is read there, and is spelled in a way
that is understood.

What the store sends and what it asks for are put together here, for a database that gives back the
values that it was given (`Contents.keep`). The parameters of an insert make a row
(`insertedRow?_run`, `insertedRow?_step`), and what a select takes out of that row, whatever it
holds, are the values that went in (`WorkflowRow.ofRow_selected`, `StepRow.ofRow_selected`). The row
of a record says all that the record says (`WorkflowRow.toInstance_ofInstance`,
`StepRow.toInstance_ofInstance`): statuses and positions have words of their own, and a control
structure, the data and the reasons of failures can be read off their documents. So once a run has
been put in with its steps, each of them is found as it was (`rows_read_back`).
-/

namespace Orchestration

open Json (IsData)

/-! ## Records -/

/-- The values that a run can have: its data are objects without duplicates, and so are its
errors. -/
structure WorkflowInstance.Fits (w : WorkflowInstance) : Prop where
  inputData : IsData w.inputData
  outputData : IsData w.outputData
  errorMessages : w.errorMessages.Sorted

/-- The values that a step can have. -/
structure StepInstance.Fits (s : StepInstance) : Prop where
  shape : s.shape.Fits
  inputData : IsData s.inputData
  outputData : IsData s.outputData

namespace Store

open Sql (Contents OtherStatements Parameter Row Statement Table Value insertedRow?)

/-! ## Columns -/

variable {r : Row} {column : String} {α : Type}

theorem read_eq_ok {f : Value → Option α} {value : Value} {a : α} (h : r.get column = value)
    (hf : f value = some a) : r.read column f = .ok a := by
  rw [Row.read, h, hf]

theorem read?_eq_ok {f : Value → Option α} {mk : α → Value} {o : Option α}
    (h : r.get column = .ofOption mk o) (hf : ∀ a, f (mk a) = some a) (hnull : ∀ a, mk a ≠ .null) :
    r.read? column f = .ok o := by
  rw [Row.read?, h]
  cases o with
  | none => rfl
  | some a =>
    simp only [Value.ofOption]
    split
    · next hmk => exact absurd hmk (hnull a)
    · rw [hf]

theorem bind_eq_ok_of {β : Type} {o : Except EngineError α} {f : α → Except EngineError β} {a : α}
    {b : β} (h : o = .ok a) (hf : f a = .ok b) : o >>= f = .ok b := by
  rw [h]
  exact hf

/-! ## Rows -/

def WorkflowRow.row (r : WorkflowRow) : Row := runTable.row (r.params.map (·.value))

def StepRow.row (r : StepRow) : Row := stepTable.row (r.params.map (·.value))

theorem WorkflowRow.get_uid_row (r : WorkflowRow) : r.row.get "uid" = .uuid r.uid := rfl

theorem StepRow.get_uid_row (r : StepRow) : r.row.get "uid" = .uuid r.uid := rfl

/-- The columns that a statement names. -/
def columnsOf : Statement → List String
  | .insert _ columns | .select columns .. => columns
  | _ => []

theorem insertedRow?_run (r : WorkflowRow) :
    insertedRow? runTable (columnsOf insertRunStatement) r.params = some r.row := if_pos rfl

theorem insertedRow?_step (r : StepRow) :
    insertedRow? stepTable (columnsOf insertStepStatement) r.params = some r.row := if_pos rfl

theorem WorkflowRow.ofRow_selected (r : WorkflowRow) :
    WorkflowRow.ofRow (r.row.selected (columnsOf (selectRuns [isFirst]))) = .ok r := by
  -- One column after the other is found and read, be it one that may be null or not.
  repeat first
    | refine bind_eq_ok_of (read_eq_ok rfl rfl) ?_
    | refine bind_eq_ok_of (read?_eq_ok rfl (fun _ ↦ rfl) nofun) ?_
  rfl

theorem StepRow.ofRow_selected (r : StepRow) :
    StepRow.ofRow (r.row.selected (columnsOf (selectSteps [isFirst] none none))) = .ok r := by
  repeat first
    | refine bind_eq_ok_of (read_eq_ok rfl rfl) ?_
    | refine bind_eq_ok_of (read?_eq_ok rfl (fun _ ↦ rfl) nofun) ?_
  rfl

/-! ## What a row says -/

theorem readStatus_text (status : RunStatus) : readStatus status.text = .ok status := by
  cases status <;> rfl

theorem readLabel_text (label : OrderLabel) : readLabel label.text = .ok label := by
  cases label <;> rfl

theorem readDocument_of_faithful {α : Type} {σ : Json.Schema} {encode : α → Json}
    {decode : Json.Decoder α} {Fits : α → Prop} (h : Json.Faithful σ encode decode Fits) {a : α}
    (ha : Fits a) : readDocument decode (encode a) = .ok a := by
  rw [readDocument, h.decode_encode ha]

theorem readData_obj {d : Json.Object} (hd : IsData d) : readData (.obj d) = d := hd

theorem WorkflowRow.toInstance_ofInstance {w : WorkflowInstance} (hw : w.Fits) :
    (WorkflowRow.ofInstance w).toInstance = .ok w := by
  have herrors : readDocument (Json.Decoder.dict Json.Decoder.text) (errorsToJson w.errorMessages) =
      .ok w.errorMessages :=
    readDocument_of_faithful (.dict (σ := .data) .text) ⟨hw.errorMessages, fun _ _ ↦ trivial⟩
  refine bind_eq_ok_of herrors (bind_eq_ok_of (readStatus_text w.runStatus) ?_)
  simp only [ofInstance, readData_obj hw.inputData, readData_obj hw.outputData]
  rfl

theorem StepRow.toInstance_ofInstance {s : StepInstance} (hs : s.Fits) :
    (StepRow.ofInstance s).toInstance = .ok s := by
  refine bind_eq_ok_of (readLabel_text s.runOrderLabel) ?_
  refine bind_eq_ok_of (readDocument_of_faithful (StepStructure.faithful false) hs.shape) ?_
  refine bind_eq_ok_of (readStatus_text s.runStatus) ?_
  simp only [ofInstance, readData_obj hs.inputData, readData_obj hs.outputData]
  rfl

/-! ## Putting records in -/

variable {b b' : Contents} (other : OtherStatements)

section Exchange

variable {execute : OtherStatements} {β : Type} {a : α}

/-- What follows an action that has succeeded goes on with its result. -/
theorem exchange_bind_of_ok {first : Sql.Action α} {next : α → Sql.Action β}
    (h : b.exchange execute first = (.ok a, b')) :
    b.exchange execute (first >>= next) = b'.exchange execute (next a) := by
  rw [exchange_bind, h]
  rfl

theorem exchange_tryCatch_of_ok {body : Sql.Action α} {handle : EngineError → Sql.Action α}
    (h : b.exchange execute body = (.ok a, b')) :
    b.exchange execute (tryCatch body handle) = (.ok a, b') := by
  refine (Program.run_bind ..).trans ?_
  have hbody : Program.run (Contents.answer execute) body b = (.ok a, b') := h
  rw [hbody]
  rfl

/-- A transaction in which nothing fails does what is done in it. -/
theorem exchange_transaction {body : Sql.Action α} (h : b.exchange execute body = (.ok a, b')) :
    b.exchange execute (Sql.Action.transaction body) = (.ok a, b') := by
  have hstart : b.exchange execute (Sql.Action.control .start) = (.ok (), b) := rfl
  rw [Sql.Action.transaction, exchange_bind_of_ok hstart]
  refine exchange_tryCatch_of_ok ?_
  have hcommit : b'.exchange execute (Sql.Action.control .commit) = (.ok (), b') := rfl
  rw [exchange_bind_of_ok h, exchange_bind_of_ok hcommit]
  rfl

theorem exchange_perform_of_ok {statement : Statement} {params : List Parameter}
    {outcome : Sql.Outcome} (h : execute ⟨statement, params⟩ b = (.ok outcome, b')) :
    b.exchange execute (Sql.Action.perform statement params) = (.ok (), b') := by
  rw [exchange_perform, h]
  rfl

end Exchange

theorem keep_insertRun (r : WorkflowRow) (hnew : b.row? runTable r.uid = none) :
    b.keep other ⟨insertRunStatement, r.params⟩ = (.ok { affected := 1 }, b.put runTable r.row) :=
  Contents.keep_insert other (insertedRow?_run r) r.get_uid_row hnew

theorem keep_insertStep (r : StepRow) (hnew : b.row? stepTable r.uid = none) :
    b.keep other ⟨insertStepStatement, r.params⟩ = (.ok { affected := 1 }, b.put stepTable r.row) :=
  Contents.keep_insert other (insertedRow?_step r) r.get_uid_row hnew

theorem exchange_insertSteps {steps : List StepInstance} (hnd : (steps.map (·.uid)).Nodup)
    (hnew : ∀ s ∈ steps, b.row? stepTable s.uid = none) :
    ∃ b', b.exchange (Contents.keep other) (steps.forM fun step ↦
        Sql.Action.perform insertStepStatement (StepRow.ofInstance step).params) = (.ok (), b') ∧
      (∀ s ∈ steps, b'.row? stepTable s.uid = some (StepRow.ofInstance s).row) ∧
      ∀ table u, (table = stepTable → u ∉ steps.map (·.uid)) → b'.row? table u =
        b.row? table u := by
  induction steps generalizing b with
  | nil => exact ⟨b, rfl, fun _ hs ↦ absurd hs List.not_mem_nil, fun _ _ _ ↦ rfl⟩
  | cons s rest ih =>
    obtain ⟨hs, hnd⟩ := List.nodup_cons.1 hnd
    have hnone : b.row? stepTable s.uid = none := hnew s List.mem_cons_self
    have hput := keep_insertStep other (.ofInstance s) hnone
    set row := (StepRow.ofInstance s).row
    have hu : row.get "uid" = .uuid s.uid := (StepRow.ofInstance s).get_uid_row
    have hothers : ∀ table u, (table = stepTable → u ≠ s.uid) →
        (b.put stepTable row).row? table u = b.row? table u := fun _ _ hne ↦
      Contents.row?_put_of_ne hu hne
    have hne : ∀ s' ∈ rest, s'.uid ≠ s.uid := fun s' hs' he ↦
      hs (List.mem_map.2 ⟨s', hs', he⟩)
    obtain ⟨b', hrest, hfound, hframe⟩ := ih (b := b.put stepTable row) hnd fun s' hs' ↦
      (hothers _ _ fun _ ↦ hne s' hs').trans (hnew s' (List.mem_cons_of_mem _ hs'))
    refine ⟨b', ?_, fun s' hs' ↦ ?_, fun table u hu' ↦ ?_⟩
    · exact (exchange_bind_of_ok (exchange_perform_of_ok hput)).trans hrest
    · rcases List.mem_cons.1 hs' with rfl | hs'
      · rw [hframe _ _ fun _ ↦ hs]
        exact Contents.row?_put_self hu hnone
      · exact hfound s' hs'
    · rw [hframe _ _ fun ht hmem ↦ hu' ht (List.mem_cons_of_mem _ hmem)]
      exact hothers _ _ fun ht he ↦ hu' ht (he ▸ List.mem_cons_self)

/-! ## Records that come back -/

/-- A record is found by its identifier, once its row can be read. -/
theorem exchange_readFirst_row {table : Table} (columns : List String) {row : Row} {u : Uid} {x : α}
    {read : Row → Except EngineError α}
    (hcolumns : (columns.all fun column ↦ (table.typeOf? column).isSome) = true)
    (hrow : b.row? table u = some row) (hread : read (row.selected columns) = .ok x) :
    b.exchange (Contents.keep other)
      (readFirst read (.select columns table [isFirst] none none) [.uuid u]) =
        (.ok (some x), b) := by
  obtain ⟨outcome, hhead, houtcome⟩ := Contents.keep_select other hcolumns hrow
  rw [isFirst, exchange_readFirst b read _ houtcome, hhead, Option.mapM_some, hread]
  rfl

/-- **A record that has been put into its table comes back as it was.** A run that is put in with
its steps, none of which the database knows, is there afterwards, and so is each of its steps: asked
for by their identifiers, they are what they were. -/
theorem rows_read_back {w : WorkflowInstance} {steps : List StepInstance} (hw : w.Fits)
    (hsteps : ∀ s ∈ steps, s.Fits) (hrun : b.row? runTable w.uid = none)
    (hnew : ∀ s ∈ steps, b.row? stepTable s.uid = none) (hnd : (steps.map (·.uid)).Nodup) :
    ∃ b', b.exchange (Contents.keep other) (Call.insertRun w steps).perform = (.ok (), b') ∧
      b'.exchange (Contents.keep other) (Call.getRun w.uid).perform = (.ok (some w), b') ∧
      ∀ s ∈ steps,
        b'.exchange (Contents.keep other) (Call.getStep s.uid).perform = (.ok (some s), b') := by
  have htables : stepTable ≠ runTable := by decide
  have hput := keep_insertRun other (.ofInstance w) hrun
  set row := (WorkflowRow.ofInstance w).row
  have hu : row.get "uid" = .uuid w.uid := (WorkflowRow.ofInstance w).get_uid_row
  have hothers : ∀ u, (b.put runTable row).row? stepTable u = b.row? stepTable u := fun _ ↦
    Contents.row?_put_of_ne hu fun ht ↦ absurd ht htables
  obtain ⟨b', hrest, hfound, hframe⟩ := exchange_insertSteps other
    (b := b.put runTable row) hnd fun s hs ↦ (hothers _).trans (hnew s hs)
  have hfoundRun : b'.row? runTable w.uid = some row := by
    rw [hframe _ _ fun ht ↦ absurd ht.symm htables]
    exact Contents.row?_put_self hu hrun
  refine ⟨b', exchange_transaction ?_, ?_, fun s hs ↦ ?_⟩
  · exact (exchange_bind_of_ok (exchange_perform_of_ok hput)).trans hrest
  · exact exchange_readFirst_row other (columnsOf (selectRuns [isFirst])) rfl hfoundRun
      (bind_eq_ok_of (WorkflowRow.ofRow_selected _) (WorkflowRow.toInstance_ofInstance hw))
  · exact exchange_readFirst_row other (columnsOf (selectSteps [isFirst] none none)) rfl
      (hfound s hs)
      (bind_eq_ok_of (StepRow.ofRow_selected _) (StepRow.toInstance_ofInstance (hsteps s hs)))

/-- A run that has failed below another one, with data of all kinds and two reasons. -/
def failedRun : WorkflowInstance :=
  { uid := .ofNat 1
    workflowUid := .ofNat 2
    name := "nightly"
    runStatus := .failedWithTerminalError
    inputData := [("a", .arr [.null, .float 0.5, .obj [("b", .int (-7)), ("c", .bool true)]])]
    outputData := [("", .str "")]
    errorMessages := [("decide", "no case"), ("nightly", "stopped")]
    startTime := some ⟨1700000000, 5⟩
    parentInstanceUid := some (.ofNat 3)
    stepInstanceIds := [.ofNat 5, .ofNat 4]
    createdAt := ⟨1699999999, 999999999⟩ }

def failedDecision : StepInstance :=
  { uid := .ofNat 4
    workflowInstanceUid := .ofNat 1
    stepDefinitionUid := .ofNat 6
    name := "decide"
    shape := .switch "[call.output.x]"
      [("default", .subWorkflow (.ofNat 5)), ("no", .function (.ofNat 9))]
    selectedCaseName := some "no"
    runStatus := .failed
    runOrderLabel := .last
    executionOrder := -2
    previousStepId := some (.ofNat 5)
    retryCount := 0
    runCount := 3
    inputData := [("x", .int 1)]
    failureReason := some "no case" }

theorem rows_read_back_of_a_failure :
    (failedRun.Fits ∧ (∀ s ∈ [failedDecision], s.Fits) ∧
      Contents.row? (fun _ ↦ []) runTable failedRun.uid = none ∧
      (∀ s ∈ [failedDecision], Contents.row? (fun _ ↦ []) stepTable s.uid = none) ∧
      ([failedDecision].map (·.uid)).Nodup) ∧
    ∃ b', Contents.exchange (Contents.keep fun _ b ↦ (.ok {}, b)) (fun _ ↦ [])
        (Call.insertRun failedRun [failedDecision]).perform = (.ok (), b') ∧
      b'.exchange (Contents.keep fun _ b ↦ (.ok {}, b)) (Call.getRun failedRun.uid).perform =
        (.ok (some failedRun), b') ∧
      ∀ s ∈ [failedDecision],
        b'.exchange (Contents.keep fun _ b ↦ (.ok {}, b)) (Call.getStep s.uid).perform =
          (.ok (some s), b') := by
  have hrun : failedRun.Fits := ⟨rfl, rfl, .cons (by decide) (.cons (by decide) .nil)⟩
  have hsteps : ∀ s ∈ [failedDecision], s.Fits := by
    intro s hs
    rw [List.mem_singleton.1 hs]
    exact ⟨.cons (by decide) (.cons (by decide) .nil), rfl, rfl⟩
  have hnd : ([failedDecision].map (·.uid)).Nodup := List.nodup_singleton _
  exact ⟨⟨hrun, hsteps, rfl, fun _ _ ↦ rfl, hnd⟩,
    rows_read_back _ hrun hsteps rfl (fun _ _ ↦ rfl) hnd⟩

end Store

end Orchestration
