import Questionnaire.CommandLine
import Questionnaire.Proofs.Model.Apart
import Questionnaire.Proofs.Page.Nesting
import Questionnaire.Proofs.Page.Submitting

/-!
# Trying a payload out

The command `validate` says of a payload what submitting it would come to. It goes through the steps
of a submission by itself (`checkedState_eq_answers`) and stores nothing; what it prints instead is
the update of the page's part, and that is the whole state which the update makes of an empty one
(`Page.merge_nil_asUpdate`).

What is printed can be read. A reader of JSON that rounds once, and goes one step deeper than the one
for payloads, reads the state back; the one for payloads does so too where it goes deep enough and
comes back to the state's floating-point numbers. A line of errors gives a name and a message, unless
there is a space in the name (`listedName_failureLine`, `listedMessage_failureLine`).
-/

namespace Questionnaire

/-- Into an empty state an update is merged as it is. -/
theorem Page.merge_nil_asUpdate {page : Page} {payload : FormData} {answers : State}
    (h : page.answers payload = .ok answers) :
    State.merge [] (page.asUpdate answers) = page.asUpdate answers :=
  mergeFields_nil (mayAnswer_of_answers h).ordered_asUpdate

/-- A page of a questionnaire is found at its path, or else another one is. -/
theorem Model.exists_page? {model : Model} {page : Page} (h : page ∈ model.pages) :
    ∃ found, model.page? page.path = some found :=
  Option.isSome_iff_exists.mp (List.find?_isSome.mpr ⟨page, h, beq_self_eq_true _⟩)

/-- What a payload makes of an empty store. -/
theorem Model.submit_nil_of_ok {model : Model} {path : String} {page : Page} {payload : FormData}
    {answers : State} (hpage : model.page? path = some page)
    (hanswers : page.answers payload = .ok answers) :
    model.submit path payload (.inMemory []) =
      (.ok (.proceed (page.next (page.asUpdate answers)) (page.asUpdate answers)),
        .inMemory (page.asUpdate answers)) := by
  rw [Model.submit, hpage]
  simp only [Page.submit_inMemory hanswers, Page.merge_nil_asUpdate hanswers]
  rfl

theorem Model.submit_of_error {model : Model} {path : String} {page : Page} {payload : FormData}
    {summary : ErrorSummary} (hpage : model.page? path = some page)
    (hanswers : page.answers payload = .error summary) (store : Store) :
    model.submit path payload store =
      (.ok (.rerender (page.view payload (some summary))), store) := by
  rw [Model.submit, hpage]
  simp only [Page.submit, hanswers]
  rfl

namespace CommandLine

/-- The command checks a payload as a submission does. -/
theorem checkedState_eq_answers (page : Page) (payload : FormData) :
    checkedState page payload = page.answers payload := by
  unfold checkedState Page.answers
  cases page.validateForm payload <;> rfl

variable {files : Files} {form path payload formText payloadText : String} {model : Model}
  {fields : Fields} {page : Page}

theorem loadModel_eq (hform : files form = .ok formText) (hmodel : Model.ofText formText = .ok model) :
    loadModel files form = .ok model := by
  simp only [loadModel, hform, hmodel]

theorem loadObject_eq (hpayload : files payload = .ok payloadText)
    (hfields : Json.parse? payloadText = some (.obj fields)) (what : String) :
    loadObject files payload what = .ok fields := by
  simp only [loadObject, hpayload, hfields]

theorem findPage_eq (hpage : model.page? path = some page) : findPage model path = .ok page := by
  simp only [findPage, hpage]

/-- With its files read, the command reports on the page at the path. -/
theorem run_validate (hform : files form = .ok formText)
    (hmodel : Model.ofText formText = .ok model) (hpayload : files payload = .ok payloadText)
    (hfields : Json.parse? payloadText = some (.obj fields)) (hpage : model.page? path = some page) :
    run files (.validate form path payload) = validateReport page fields := by
  rw [run, loadModel_eq hform hmodel, loadObject_eq hpayload hfields]
  show either (findPage model path >>= fun page => pure (validateReport page fields)) = _
  rw [findPage_eq hpage]
  rfl

theorem validateReport_of_ok {answers : State} (h : page.answers fields = .ok answers) :
    validateReport page fields = .printed 0 [(Json.obj (page.asUpdate answers)).pretty] := by
  rw [validateReport, checkedState_eq_answers, h]

theorem validateReport_of_error {summary : ErrorSummary}
    (h : page.answers fields = .error summary) :
    validateReport page fields = .printed 1 (summary.title :: summary.failures.map failureLine) := by
  rw [validateReport, checkedState_eq_answers, h]

/-! ### Reading what is printed -/

theorem stdout_printed (code : Nat) (line : String) :
    (Outcome.printed code [line]).stdout = line ++ "\n" := by
  simp [Outcome.stdout, Outcome.printed]

/-- The update that a payload makes is nested one step deeper than the payload can be. -/
theorem wellNested_asUpdate {answers : State} (hfields : Json.parse? payloadText = some (.obj fields))
    (hanswers : page.answers fields = .ok answers) :
    (Json.obj (page.asUpdate answers)).WellNested (Json.depthLimit + 1) :=
  Page.wellNested_answers hanswers (Json.wellNested_of_readWith? hfields)

/-- The name on a line of errors: what stands behind two spaces, up to the next. -/
def listedName (line : String) : String :=
  String.ofList ((line.toList.drop 2).takeWhile (· ≠ ' '))

/-- The message on a line of errors: what stands behind the name and the spaces that follow it. -/
def listedMessage (line : String) : String :=
  String.ofList (((line.toList.drop 2).dropWhile (· ≠ ' ')).dropWhile (· = ' '))

section

variable {failure : Failure}

theorem toList_failureLine (failure : Failure) :
    (failureLine failure).toList = ' ' :: ' ' :: (failure.fieldName.toList ++
      (List.replicate (30 - failure.fieldName.length + 1) ' ' ++ failure.message.toList)) := by
  simp [failureLine, column, List.replicate_succ']

/-- The name is filled up to thirty characters, and at least one space stands behind it. -/
theorem failureLine_eq (failure : Failure) :
    failureLine failure = "  " ++ failure.fieldName ++
      String.ofList (List.replicate (30 - failure.fieldName.length + 1) ' ') ++ failure.message := by
  apply String.toList_injective
  rw [toList_failureLine]
  simp

theorem listedName_failureLine (hname : ' ' ∉ failure.fieldName.toList) :
    listedName (failureLine failure) = failure.fieldName := by
  have htaken : ∀ c ∈ failure.fieldName.toList, decide (c ≠ ' ') = true :=
    fun c hc => decide_eq_true fun hspace => hname (hspace ▸ hc)
  rw [listedName, toList_failureLine, List.drop_succ_cons, List.drop_succ_cons, List.drop_zero,
    List.takeWhile_append_of_pos htaken, List.replicate_succ, List.cons_append,
    List.takeWhile_cons_of_neg (by decide), List.append_nil, String.ofList_toList]

theorem listedMessage_failureLine (hname : ' ' ∉ failure.fieldName.toList) :
    listedMessage (failureLine failure) = failure.message := by
  have hdropped : ∀ c ∈ failure.fieldName.toList, decide (c ≠ ' ') = true :=
    fun c hc => decide_eq_true fun hspace => hname (hspace ▸ hc)
  have hspaces (n : Nat) : ∀ c ∈ List.replicate n ' ', decide (c = ' ') = true :=
    fun c hc => decide_eq_true (List.eq_of_mem_replicate hc)
  -- A message begins with the quotation mark before the label.
  have hquote : failure.message.toList.dropWhile (decide <| · = ' ') = failure.message.toList := by
    simp [Failure.message]
  rw [listedMessage, toList_failureLine, List.drop_succ_cons, List.drop_succ_cons, List.drop_zero,
    List.dropWhile_append_of_pos hdropped, List.replicate_succ, List.cons_append,
    List.dropWhile_cons_of_neg (by decide), List.dropWhile_cons_of_pos (by decide),
    List.dropWhile_append_of_pos (hspaces _), hquote, String.ofList_toList]

end

/-- The command `validate` ends with code 0 just when the payload, submitted to the page with an
empty store, proceeds. What it has then printed is one object, and that object is read back as the
state that the submission leaves in the store. Otherwise it ends with code 1 and has printed the names
and messages of the errors that the page is shown again with, one to a line and in their order, where
they can be told apart. -/
theorem validate_agrees (hform : files form = .ok formText)
    (hmodel : Model.ofText formText = .ok model) (hpayload : files payload = .ok payloadText)
    (hfields : Json.parse? payloadText = some (.obj fields)) (hpage : page ∈ model.pages) :
    ((run files (.validate form page.path payload)).code = 0 ↔
        ∃ next state store, model.submit page.path fields (.inMemory []) =
          (.ok (.proceed next state), store)) ∧
      match model.submit page.path fields (.inMemory []) with
      | (.ok (.proceed _ state), store) =>
        store = .inMemory state ∧
          run files (.validate form page.path payload) = .printed 0 [(Json.obj state).pretty] ∧
          Json.readWith? Numeral.denoted? (Json.depthLimit + 1)
              (run files (.validate form page.path payload)).stdout = some (.obj state) ∧
          ((Json.obj state).Within (fun x => Json.parse? x.marked = some (.num (.float x)))
              Json.depthLimit →
            Json.parse? (run files (.validate form page.path payload)).stdout = some (.obj state))
      | (.ok (.rerender view), store) =>
        store = .inMemory [] ∧ ∃ summary lines, view.errors = some summary ∧ summary.failures ≠ [] ∧
          run files (.validate form page.path payload) = .printed 1 (summary.title :: lines) ∧
          List.Forall₂ (fun line failure =>
            line = "  " ++ failure.fieldName ++
                String.ofList (List.replicate (30 - failure.fieldName.length + 1) ' ') ++
                failure.message ∧
              (' ' ∉ failure.fieldName.toList →
                listedName line = failure.fieldName ∧ listedMessage line = failure.message))
            lines summary.failures
      | (.error _, _) => False := by
  obtain ⟨found, hfound⟩ := Model.exists_page? hpage
  rw [run_validate hform hmodel hpayload hfields hfound]
  cases hanswers : found.answers fields with
  | error summary =>
      obtain ⟨-, hfails⟩ := Page.failsWith_of_answers hanswers
      rw [Model.submit_of_error hfound hanswers, validateReport_of_error hanswers]
      refine ⟨⟨nofun, nofun⟩, rfl, summary, _, Page.errors_view fields hfails.ne_nil, hfails.ne_nil,
        rfl, ?_⟩
      rw [List.forall₂_map_left_iff, List.forall₂_same]
      exact fun failure _ => ⟨failureLine_eq failure, fun hname =>
        ⟨listedName_failureLine hname, listedMessage_failureLine hname⟩⟩
  | ok answers =>
      have hline : ∀ c ∈ "\n".toList, Json.isSpace c = true := List.all_eq_true.mp (by decide)
      rw [Model.submit_nil_of_ok hfound hanswers, validateReport_of_ok hanswers, stdout_printed]
      exact ⟨⟨fun _ => ⟨_, _, _, rfl⟩, fun _ => rfl⟩, rfl, rfl,
        Json.readWith?_denoted_pretty (wellNested_asUpdate hfields hanswers) hline,
        fun hwithin => Json.parse?_pretty hwithin hline⟩

/-! ### The last of a month -/

/-- A questionnaire that asks for a day by its parts, as it is written. -/
def daySource : Json :=
  visitSource [] [fieldSource "DatePartsField" "day" "Day" []]

/-- The thirty-first of a month. -/
def dayData (month : String) : FormData :=
  [("day__day", .str "31"), ("day__month", .str month), ("day__year", .str "2026")]

/-- The questionnaire and a payload as the contents of files. -/
def dayFiles (month : String) : Files
  | "form" => .ok daySource.compress
  | "payload" => .ok (Json.obj (dayData month)).compress
  | _ => .error "no such file"

theorem ofText_daySource : Model.ofText daySource.compress = .ok (compiled daySource) := by
  have hparse : Json.parse? daySource.compress = some daySource := by decide +kernel
  rw [Model.ofText, hparse]
  with_unfolding_all rfl

theorem parse?_dayData : ∀ month ∈ ["10", "11"],
    Json.parse? (Json.obj (dayData month)).compress = some (.obj (dayData month)) := by
  decide +kernel

theorem answers_october : ∀ page ∈ (compiled daySource).pages,
    page.sectionName? = some "visit" ∧
      page.answers (dayData "10") = .ok [("day", .str "2026-10-31")] := by
  decide +kernel

/-- The form takes the day as three numbers; the rule for the state refuses what they make. -/
theorem refuses_november : ∀ page ∈ (compiled daySource).pages,
    page.validateForm (dayData "11") =
        .ok [("day__day", .ofInt 31), ("day__month", .ofInt 11), ("day__year", .ofInt 2026)] ∧
      page.answers (dayData "11") =
        .error ⟨"Fix the following errors", [⟨["day"], "Day", .notDate⟩]⟩ := by
  decide +kernel

/-- The state that the thirty-first of October makes. -/
def dayState : State :=
  [("visit", .obj [("day", .str "2026-10-31")])]

theorem pretty_dayState : (Json.obj dayState).pretty =
    "\x7b\n  \"visit\": \x7b\n    \"day\": \"2026-10-31\"\n  \x7d\n\x7d" := by
  decide +kernel

/-- October has a thirty-first, and November has not. -/
theorem validate_agrees_day : ∃ page ∈ (compiled daySource).pages,
    (run (dayFiles "10") (.validate "form" page.path "payload") =
        .printed 0 ["\x7b\n  \"visit\": \x7b\n    \"day\": \"2026-10-31\"\n  \x7d\n\x7d"] ∧
      Json.parse? (run (dayFiles "10") (.validate "form" page.path "payload")).stdout =
        some (.obj dayState) ∧
      ((compiled daySource).submit page.path (dayData "10") (.inMemory [])).2 =
        .inMemory dayState) ∧
    (∃ data, page.validateForm (dayData "11") = .ok data) ∧
    (run (dayFiles "11") (.validate "form" page.path "payload") =
        .printed 1 ["Fix the following errors",
          "  day                            \"Day\" must be a valid date"] ∧
      ((compiled daySource).submit page.path (dayData "11") (.inMemory [])).2 = .inMemory []) := by
  obtain ⟨page, hpage⟩ : ∃ page, page ∈ (compiled daySource).pages :=
    List.exists_mem_of_ne_nil _ (by with_unfolding_all decide +kernel)
  obtain ⟨found, hfound⟩ := Model.exists_page? hpage
  have hmem : found ∈ (compiled daySource).pages := List.mem_of_find?_eq_some hfound
  have hoctober := @validate_agrees (dayFiles "10") "form" "payload" _ _ _ _ page rfl
    ofText_daySource rfl (parse?_dayData "10" (.head _)) hpage
  have hnovember := @validate_agrees (dayFiles "11") "form" "payload" _ _ _ _ page rfl
    ofText_daySource rfl (parse?_dayData "11" (.tail _ (.head _))) hpage
  obtain ⟨hsection, hanswers⟩ := answers_october found hmem
  obtain ⟨-, hrefuses⟩ := refuses_november found hmem
  have hupdate : found.asUpdate [("day", .str "2026-10-31")] = dayState := by
    rw [Page.asUpdate, hsection]
    rfl
  rw [Model.submit_nil_of_ok hfound hanswers, hupdate] at hoctober
  rw [Model.submit_of_error hfound hrefuses] at hnovember
  obtain ⟨-, -, hprinted, -, hread⟩ := hoctober
  obtain ⟨-, -, summary, lines, hsummary, -, hlisted, hlines⟩ := hnovember
  rw [Page.errors_view (dayData "11") (List.cons_ne_nil _ _)] at hsummary
  cases hsummary
  obtain - | ⟨⟨hline, -⟩, - | -⟩ := hlines
  rw [pretty_dayState] at hprinted
  refine ⟨page, hpage, ⟨hprinted, hread ?_, ?_⟩, ⟨_, (refuses_november page hpage).1⟩,
    hlisted.trans ?_, ?_⟩
  · refine .obj (List.pairwise_singleton _ _) (List.forall_mem_singleton.mpr ?_)
    exact .obj (List.pairwise_singleton _ _) (List.forall_mem_singleton.mpr .str)
  · rw [Model.submit_nil_of_ok hfound hanswers, hupdate]
  · rw [hline]
    decide +kernel
  · rw [Model.submit_of_error hfound hrefuses]

end CommandLine

end Questionnaire
