import Mathlib.Data.List.Pairwise
import Questionnaire.Proofs.Model.Apart

/-!
# Interleaved submissions

Clients that send submissions at the same time take turns: each submission is checked in one turn
and its answers, if it has any, are merged in a later one, in one step (`Exchange.turn`). What the
store holds depends on the order of the merges only (`Exchange.Sound.store`), and merges into pages
that are apart may change places (`Request.after_comm`). So as long as the submissions of each page
keep their order, no interleaving loses what another one keeps (`Model.store_eq_of_interleavings`):
in the end the answers that were merged last into each page are there (`Exchange.get?_stored_of_last`).
-/

namespace Questionnaire

/-! ## Steps that may change places -/

section

variable {α β κ : Type} {f : β → α → β} {key : α → κ} {P : β → Prop}

/-- A step may be taken before all others whose key is not its own. -/
theorem foldl_step_comm (hkeep : ∀ state item, P state → P (f state item))
    (hcomm : ∀ state first second, P state → key first ≠ key second →
      f (f state first) second = f (f state second) first)
    {before : List α} {item : α} (hbefore : ∀ other ∈ before, key other ≠ key item) {state : β}
    (hstate : P state) : f (before.foldl f state) item = before.foldl f (f state item) := by
  induction before generalizing state with
  | nil => rfl
  | cons first rest ih =>
      rw [List.foldl_cons, ih (fun other h => hbefore other (List.mem_cons_of_mem _ h))
        (hkeep state first hstate), hcomm state first item hstate (hbefore first (by simp)),
        List.foldl_cons]

/-- Steps of different keys change places: two orders of the same steps end alike as long as the
steps of each key keep their order. -/
theorem foldl_eq_of_filter_eq [DecidableEq κ] (hkeep : ∀ state item, P state → P (f state item))
    (hcomm : ∀ state first second, P state → key first ≠ key second →
      f (f state first) second = f (f state second) first)
    {items others : List α}
    (h : ∀ k, items.filter (key · = k) = others.filter (key · = k)) {state : β} (hstate : P state) :
    items.foldl f state = others.foldl f state := by
  induction items generalizing others state with
  | nil =>
      cases others with
      | nil => rfl
      | cons first rest => simpa using h (key first)
  | cons item rest ih =>
      -- the item is the first of its key among the others, so it can be brought to their front
      obtain ⟨before, after, rfl, hbefore, hitem, hafter⟩ :=
        List.filter_eq_cons_iff.mp ((h (key item)).symm.trans (List.filter_cons_of_pos (by simp)))
      have hne : ∀ other ∈ before, key other ≠ key item := by simpa using hbefore
      have hrest : ∀ k, rest.filter (key · = k) = (before ++ after).filter (key · = k) := by
        intro k
        by_cases hk : key item = k
        · subst hk
          have hnone : before.filter (key · = key item) = [] :=
            List.filter_eq_nil_iff.mpr (by simpa using hne)
          rw [List.filter_append, hnone, List.nil_append, hafter]
        · have := h k
          simpa [hk] using this
      calc (item :: rest).foldl f state
          = (before ++ after).foldl f (f state item) := ih hrest (hkeep state item hstate)
        _ = after.foldl f (before.foldl f (f state item)) := List.foldl_append
        _ = after.foldl f (f (before.foldl f state) item) := by
            rw [foldl_step_comm hkeep hcomm hne hstate]
        _ = (before ++ item :: after).foldl f state := by rw [List.foldl_append, List.foldl_cons]

end

/-! ## Requests -/

/-- The second half of a submission: what follows its check, and the store afterwards. -/
def Page.conclude (page : Page) (payload : FormData) (answers : Except ErrorSummary State)
    (store : Store) : Except StoreError Submission × Store :=
  match answers with
  | .error summary => (.ok (.rerender (page.view payload (some summary))), store)
  | .ok pageState =>
    match store.merge (page.asUpdate pageState) with
    | (.error e, store) => (.error e, store)
    | (.ok state, store) => (.ok (.proceed (page.next state) state), store)

theorem Page.submit_eq_conclude (page : Page) (payload : FormData) (store : Store) :
    page.submit payload store = page.conclude payload (page.answers payload) store :=
  rfl

/-- Whether two submissions end in the same way: both store answers, or both show the page again,
and then the same view of it. -/
def Submission.Alike : Submission → Submission → Prop
  | .rerender view, .rerender other => view = other
  | .proceed .., .proceed .. => True
  | _, _ => False

/-- A submission to a page of a questionnaire. -/
structure Request (model : Model) where
  place : Fin model.pages.length
  payload : FormData

namespace Request

variable {model : Model} (request : Request model)

def page : Page :=
  model.pages[request.place]

/-- Submits the request. -/
def serve (store : Store) : Except StoreError Submission × Store :=
  request.page.submit request.payload store

/-- The state after the request has been served. -/
def after (state : State) : State :=
  (request.serve (.inMemory state)).2.held

theorem page_mem : request.page ∈ model.pages :=
  List.getElem_mem _

theorem after_of_answers {answers : State} (h : request.page.answers request.payload = .ok answers)
    (state : State) : request.after state = state.merge (request.page.asUpdate answers) := by
  simp only [after, serve, Page.submit, h, Store.merge_inMemory]
  rfl

theorem after_of_error {summary : ErrorSummary}
    (h : request.page.answers request.payload = .error summary) (state : State) :
    request.after state = state := by
  simp only [after, serve, Page.submit, h]
  rfl

/-- A request that is served with a store in memory ends with a submission, which is the same view of
the page whatever the store holds or proceeds whatever it holds. -/
theorem alike_serve (state other : State) :
    ∃ first second, (request.serve (.inMemory state)).1 = .ok first ∧
      (request.serve (.inMemory other)).1 = .ok second ∧ first.Alike second := by
  simp only [serve, Page.submit]
  cases request.page.answers request.payload with
  | error summary => exact ⟨_, _, rfl, rfl, rfl⟩
  | ok answers => exact ⟨_, _, rfl, rfl, trivial⟩

end Request

/-! ## Requests that are served together -/

/-- How far a request has come. -/
inductive Stage where
  | sent
  | checked (answers : Except ErrorSummary State)
  | settled (result : Except StoreError Submission)

/-- How many turns a request has used. -/
def Stage.turns : Stage → Nat
  | .sent => 0
  | .checked _ => 1
  | .settled _ => 2

/-- What a stage tells of a request: its check has found what the page finds, and to be settled it has
been served, with a store of some state. -/
def Stage.Correct {model : Model} (request : Request model) : Stage → Prop
  | .sent => True
  | .checked answers => answers = request.page.answers request.payload
  | .settled result => ∃ state, result = (request.serve (.inMemory state)).1

/-- Requests that are served together, each by a client of its own: the store, the stage of each
request, and the requests whose answers have been merged, in order. -/
structure Exchange (n : Nat) where
  store : Store
  stage : Fin n → Stage
  merged : List (Fin n)

namespace Exchange

variable {model : Model} {n : Nat}

/-- The requests for a page whose answers have been merged, in order. -/
def mergedAt (requests : Fin n → Request model) (exchange : Exchange n)
    (place : Fin model.pages.length) : List (Fin n) :=
  exchange.merged.filter fun client => (requests client).place = place

/-- Nothing has been checked. -/
def start (held : State) : Exchange n := ⟨.inMemory held, fun _ => .sent, []⟩

/-- One turn of a client. Its submission is checked first; in its next turn what follows from the
check is done with the store as it is by then. -/
def turn (requests : Fin n → Request model) (exchange : Exchange n) (client : Fin n) :
    Exchange n :=
  let page := (requests client).page
  let payload := (requests client).payload
  match exchange.stage client with
  | .sent =>
    { exchange with
      stage := Function.update exchange.stage client (.checked (page.answers payload)) }
  | .checked answers =>
    let concluded := page.conclude payload answers exchange.store
    { store := concluded.2
      stage := Function.update exchange.stage client (.settled concluded.1)
      merged := if answers.isOk then exchange.merged ++ [client] else exchange.merged }
  | .settled _ => exchange

/-- Turns one after another. -/
def run (requests : Fin n → Request model) (held : State) (schedule : List (Fin n)) : Exchange n :=
  schedule.foldl (turn requests) (start held)

variable (requests : Fin n → Request model) (held : State)

theorem run_concat (schedule : List (Fin n)) (client : Fin n) :
    run requests held (schedule ++ [client]) = turn requests (run requests held schedule) client :=
  List.foldl_append

/-- The state after merges in the given order. -/
def mergeAll (order : List (Fin n)) : State :=
  order.foldl (fun state client => (requests client).after state) held

theorem mergeAll_concat (order : List (Fin n)) (client : Fin n) :
    mergeAll requests held (order ++ [client]) =
      (requests client).after (mergeAll requests held order) :=
  List.foldl_append

/-- What holds at any time: the store holds the merges so far, all of them of answers that a page has
accepted, and each stage is right. -/
structure Sound (exchange : Exchange n) : Prop where
  store : exchange.store = .inMemory (mergeAll requests held exchange.merged)
  accepted : ∀ client ∈ exchange.merged,
    ((requests client).page.answers (requests client).payload).isOk = true
  stages : ∀ client, (exchange.stage client).Correct (requests client)

theorem sound_start : Sound requests held (start held) :=
  ⟨rfl, nofun, fun _ => trivial⟩

variable {requests held}

/-- The store after the second turn of a client. -/
theorem Sound.conclude {exchange : Exchange n} (h : exchange.Sound requests held) (client : Fin n) :
    ((requests client).serve exchange.store).2 =
      .inMemory (mergeAll requests held
        (if ((requests client).page.answers (requests client).payload).isOk then
          exchange.merged ++ [client] else exchange.merged)) := by
  rw [h.store]
  cases hanswers : (requests client).page.answers (requests client).payload with
  | error summary => simp only [Request.serve, Page.submit, hanswers]; rfl
  | ok answers =>
      show _ = Store.inMemory (mergeAll requests held (exchange.merged ++ [client]))
      rw [mergeAll_concat, (requests client).after_of_answers hanswers]
      simp only [Request.serve, Page.submit, hanswers, Store.merge_inMemory]

theorem Sound.turn {exchange : Exchange n} (h : exchange.Sound requests held) (client : Fin n) :
    (turn requests exchange client).Sound requests held := by
  have hupdate : ∀ stage : Stage, stage.Correct (requests client) → ∀ other,
      (Function.update exchange.stage client stage other).Correct (requests other) := fun _ hstage =>
    (Function.forall_update_iff _ fun other (stage : Stage) => stage.Correct (requests other)).mpr
      ⟨hstage, fun other _ => h.stages other⟩
  unfold Exchange.turn
  cases hstage : exchange.stage client with
  | sent => exact ⟨h.store, h.accepted, hupdate _ rfl⟩
  | checked answers =>
      have hcorrect := h.stages client
      rw [hstage] at hcorrect
      obtain rfl : answers = _ := hcorrect
      have hserve : (requests client).serve exchange.store = _ := Page.submit_eq_conclude ..
      refine ⟨(congrArg Prod.snd hserve).symm.trans (h.conclude client), ?_, hupdate _ ?_⟩
      · dsimp only
        split
        · next hok => exact List.forall_mem_append.mpr ⟨h.accepted, List.forall_mem_singleton.mpr hok⟩
        · exact h.accepted
      · refine ⟨mergeAll requests held exchange.merged, ?_⟩
        rw [← h.store]
        exact (congrArg Prod.fst hserve).symm
  | settled result => exact h

variable (requests held)

theorem sound_run (schedule : List (Fin n)) :
    (run requests held schedule).Sound requests held := by
  induction schedule using List.reverseRecOn with
  | nil => exact sound_start requests held
  | append_singleton schedule client ih =>
      rw [run_concat]
      exact ih.turn client

/-- A turn brings its client one stage further, and no other. -/
theorem turns_turn (exchange : Exchange n) (client other : Fin n) :
    ((turn requests exchange other).stage client).turns =
      if other = client then min 2 ((exchange.stage client).turns + 1)
      else (exchange.stage client).turns := by
  unfold turn
  by_cases heq : other = client
  · subst heq
    cases hstage : exchange.stage other <;> simp [Stage.turns, hstage]
  · cases hstage : exchange.stage other <;> simp [heq, Function.update_of_ne (Ne.symm heq)]

theorem turns_run (schedule : List (Fin n)) (client : Fin n) :
    ((run requests held schedule).stage client).turns = min 2 (schedule.count client) := by
  induction schedule using List.reverseRecOn with
  | nil => rfl
  | append_singleton schedule other ih =>
      rw [run_concat, turns_turn, ih, List.count_append, List.count_singleton]
      by_cases heq : other = client
      · simp only [heq, if_true, beq_self_eq_true]
        omega
      · simp [heq]

/-- A client that has had two turns has been served. -/
theorem exists_settled {schedule : List (Fin n)} {client : Fin n} (h : 2 ≤ schedule.count client) :
    ∃ state, (run requests held schedule).stage client =
      .settled ((requests client).serve (.inMemory state)).1 := by
  have hturns := turns_run requests held schedule client
  have hcorrect := (sound_run requests held schedule).stages client
  rw [min_eq_left h] at hturns
  cases hstage : (run requests held schedule).stage client with
  | sent => rw [hstage] at hturns; exact nomatch hturns
  | checked answers => rw [hstage] at hturns; exact nomatch hturns
  | settled result =>
      rw [hstage] at hcorrect
      obtain ⟨state, rfl⟩ := hcorrect
      exact ⟨state, rfl⟩

end Exchange

/-! ## Questionnaires whose pages are apart -/

namespace Model

/-- Pages are apart whose names are their own in each section, when no answer outside sections has
the name of the section of a page. -/
theorem pairwise_apart {pages : List Page} (hnames : ∀ name, (pagesNames (pagesIn pages name)).Nodup)
    (hapart : ∀ page ∈ pages, ∀ name, page.sectionName? = some name →
      name ∉ pagesNames (pagesIn pages none)) : pages.Pairwise Page.Apart := by
  have houtside : ∀ page ∈ pages, ∀ other ∈ pages, ∀ name, page.sectionName? = none →
      other.sectionName? = some name → name ∉ stateNames page.components := by
    intro page hpage other hother name hnone hname hkey
    have hmem := mem_pagesNames hpage hkey
    rw [hnone] at hmem
    exact hapart other hother name hname hmem
  refine List.pairwise_iff_forall_sublist.mpr fun {page other} hsub => ?_
  have hpage : page ∈ pages := hsub.subset (by simp)
  have hother : other ∈ pages := hsub.subset (by simp)
  refine ⟨fun hsame => ?_, houtside page hpage other hother, houtside other hother page hpage⟩
  obtain ⟨-, hpairs⟩ := List.nodup_flatMap.mp (hnames page.sectionName?)
  have hboth : pagesIn [page, other] page.sectionName? = [page, other] := by
    simp [pagesIn, hsame]
  refine List.pairwise_iff_forall_sublist.mp hpairs ?_
  rw [← hboth]
  exact hsub.filter _

/-- The whole state and the part in which each page answers are in order, as all objects are that
have been read or merged. -/
def OrderedParts (model : Model) (state : State) : Prop :=
  Fields.Ordered state ∧ ∀ page ∈ model.pages, Fields.Ordered (page.stored state)

theorem orderedParts_nil (model : Model) : model.OrderedParts [] :=
  ⟨Fields.Ordered.nil, fun page _ => by rw [Page.stored_nil]; exact Fields.Ordered.nil⟩

theorem OrderedParts.after {model : Model} (hapart : model.pages.Pairwise Page.Apart)
    {state : State} (h : model.OrderedParts state) (request : Request model) :
    model.OrderedParts (request.after state) := by
  cases hanswers : request.page.answers request.payload with
  | error summary =>
      rw [request.after_of_error hanswers]
      exact h
  | ok answers =>
      rw [request.after_of_answers hanswers]
      refine ⟨h.1.mergeFields _, fun other hother => ?_⟩
      refine (Page.mayAnswer_of_answers hanswers).ordered_stored ?_ h.1 (h.2 _ request.page_mem)
        (h.2 other hother)
      intro name hnone hname
      have hne : request.page ≠ other := by
        rintro rfl
        exact nomatch hnone.symm.trans hname
      have : Std.Symm Page.Apart := ⟨fun _ _ => Page.Apart.symm⟩
      exact (hapart.forall request.page_mem hother hne).inside name hnone hname

end Model

theorem Request.apart {model : Model} (hapart : model.pages.Pairwise Page.Apart)
    {first second : Request model} (hne : first.place ≠ second.place) :
    first.page.Apart second.page := by
  rcases Nat.lt_or_gt_of_ne (Fin.val_ne_of_ne hne) with hlt | hlt
  · exact List.pairwise_iff_getElem.mp hapart _ _ first.place.2 second.place.2 hlt
  · exact (List.pairwise_iff_getElem.mp hapart _ _ second.place.2 first.place.2 hlt).symm

/-- Requests for different pages may be served in either order. -/
theorem Request.after_comm {model : Model} (hapart : model.pages.Pairwise Page.Apart)
    {state : State} (hstate : model.OrderedParts state) {first second : Request model}
    (hne : first.place ≠ second.place) :
    second.after (first.after state) = first.after (second.after state) := by
  have hpages := Request.apart hapart hne
  cases hfirst : first.page.answers first.payload with
  | error summary => rw [first.after_of_error hfirst, first.after_of_error hfirst]
  | ok answers =>
      cases hsecond : second.page.answers second.payload with
      | error summary => rw [second.after_of_error hsecond, second.after_of_error hsecond]
      | ok others =>
          rw [first.after_of_answers hfirst, first.after_of_answers hfirst,
            second.after_of_answers hsecond, second.after_of_answers hsecond]
          exact hpages.merge_comm (Page.mayAnswer_of_answers hfirst)
            (Page.mayAnswer_of_answers hsecond) hstate.1 (hstate.2 _ first.page_mem)

namespace Exchange

variable {model : Model} {n : Nat} {requests : Fin n → Request model}

/-- Requests for other pages leave the answers of a page. -/
theorem get?_stored_mergeAll (hapart : model.pages.Pairwise Page.Apart) {client : Fin n} {key : String}
    (hkey : key ∈ stateNames (requests client).page.components) {later : List (Fin n)}
    (hlater : ∀ other ∈ later, (requests other).place ≠ (requests client).place) (state : State) :
    ((requests client).page.stored (mergeAll requests state later)).get? key =
      ((requests client).page.stored state).get? key := by
  induction later generalizing state with
  | nil => rfl
  | cons other later ih =>
      obtain ⟨hne, hlater⟩ := List.forall_mem_cons.mp hlater
      refine (ih hlater ((requests other).after state)).trans ?_
      cases hanswers : (requests other).page.answers (requests other).payload with
      | error summary => rw [Request.after_of_error _ hanswers]
      | ok answers =>
          rw [Request.after_of_answers _ hanswers]
          exact (Request.apart hapart (Ne.symm hne)).get?_stored_merge
            (Page.mayAnswer_of_answers hanswers) hkey state

/-- The merges up to the last one of a page, and those after it, which are of other pages. -/
theorem exists_merged_eq_of_last {exchange : Exchange n} {place : Fin model.pages.length}
    {client : Fin n} (hlast : (exchange.mergedAt requests place).getLast? = some client) :
    ∃ before later, exchange.merged = before ++ client :: later ∧ (requests client).place = place ∧
      ∀ other ∈ later, (requests other).place ≠ place := by
  obtain ⟨others, hothers⟩ := List.getLast?_eq_some_iff.mp hlast
  obtain ⟨before, rest, hmerged, -, hrest⟩ := List.filter_eq_append_iff.mp hothers
  obtain ⟨skipped, later, rfl, -, hplace, hlater⟩ := List.filter_eq_cons_iff.mp hrest
  refine ⟨before ++ skipped, later, by rw [hmerged, List.append_assoc], by simpa using hplace, ?_⟩
  simpa using hlater

/-- In the end the part of a page holds, under each name of the submission that was merged into it
last, the value of that submission, merged into an object that was there. -/
theorem get?_stored_of_last (hapart : model.pages.Pairwise Page.Apart) (held : State)
    (schedule : List (Fin n)) {place : Fin model.pages.length} {client : Fin n}
    (hlast : ((run requests held schedule).mergedAt requests place).getLast? = some client) :
    ∃ answers, (requests client).page.answers (requests client).payload = .ok answers ∧
      ∀ key value, answers.get? key = some value →
        ∃ old, ((requests client).page.stored (run requests held schedule).store.held).get? key =
          some (mergeValue old value) := by
  have hsound := sound_run requests held schedule
  obtain ⟨before, later, hmerged, rfl, hlater⟩ := exists_merged_eq_of_last hlast
  have hok := hsound.accepted client (by simp [hmerged])
  cases hanswers : (requests client).page.answers (requests client).payload with
  | error summary => rw [hanswers] at hok; exact nomatch hok
  | ok answers =>
      refine ⟨answers, rfl, fun key value hvalue => ?_⟩
      have hmay := Page.mayAnswer_of_answers hanswers
      have hkey := hmay.names _ (Fields.mem_of_get? hvalue)
      refine ⟨((requests client).page.stored (mergeAll requests held before)).get? key, ?_⟩
      have hheld : (run requests held schedule).store.held =
          mergeAll requests ((requests client).after (mergeAll requests held before)) later := by
        rw [hsound.store, hmerged, Store.inMemory, mergeAll, List.foldl_append, List.foldl_cons]
        rfl
      rw [hheld, get?_stored_mergeAll hapart hkey hlater, Request.after_of_answers _ hanswers,
        hmay.stored_merge, get?_mergeFields hmay.ordered, hvalue]

end Exchange

/-- No interleaving loses an update. Whatever the clients send and however their turns are mixed, the
held state is the same in the end as long as the merges of each page keep their order, and a
submission that has had its turns stores its answers in both or is answered with the same page. The
part of a page then holds, under each name of the submission that was merged into it last, the value
of that submission, merged into an object that was there. -/
theorem Model.store_eq_of_interleavings {model : Model} (hapart : model.pages.Pairwise Page.Apart)
    {held : State} (hheld : model.OrderedParts held) {n : Nat} (requests : Fin n → Request model)
    (schedule other : List (Fin n))
    (horder : ∀ place,
      (Exchange.run requests held schedule).mergedAt requests place =
        (Exchange.run requests held other).mergedAt requests place) :
    (Exchange.run requests held schedule).store = (Exchange.run requests held other).store ∧
      (∀ client, 2 ≤ schedule.count client → 2 ≤ other.count client →
        ∃ first second,
          (Exchange.run requests held schedule).stage client = .settled (.ok first) ∧
            (Exchange.run requests held other).stage client = .settled (.ok second) ∧
              first.Alike second) ∧
      ∀ place client,
        ((Exchange.run requests held schedule).mergedAt requests place).getLast? = some client →
          ∃ answers, (requests client).page.answers (requests client).payload = .ok answers ∧
            ∀ key value, answers.get? key = some value →
              ∃ old, ((requests client).page.stored
                  (Exchange.run requests held schedule).store.held).get? key =
                some (mergeValue old value) := by
  refine ⟨?_, ?_, fun place client => Exchange.get?_stored_of_last hapart held schedule⟩
  · rw [(Exchange.sound_run requests held schedule).store,
      (Exchange.sound_run requests held other).store]
    refine congrArg Store.inMemory ?_
    exact foldl_eq_of_filter_eq (P := model.OrderedParts)
      (fun state client h => OrderedParts.after hapart h (requests client))
      (fun state first second h hne => Request.after_comm hapart h hne) horder hheld
  · intro client hschedule hother
    obtain ⟨state, hstage⟩ := Exchange.exists_settled requests held hschedule
    obtain ⟨state', hstage'⟩ := Exchange.exists_settled requests held hother
    obtain ⟨first, second, hfirst, hsecond, halike⟩ := (requests client).alike_serve state state'
    rw [hfirst] at hstage
    rw [hsecond] at hstage'
    exact ⟨first, second, hstage, hstage', halike⟩

/-! ### A trip -/

/-- A name and a note, each asked on a page of its own, in one section. -/
def tripSource : Json :=
  .obj
    [("pages", .arr
        [.obj [("components", .arr [fieldSource "TextField" "name" "Name" []]),
            ("path", .str "/name"), ("section", .str "trip")],
          .obj [("components", .arr [fieldSource "TextField" "note" "Note" []]),
            ("path", .str "/note"), ("section", .str "trip")]]),
      ("sections", .arr [.obj [("name", .str "trip"), ("title", .str "Trip")]])]

/-- A name and a note, and a second submission of the first page, which is shown again. -/
def tripRequests : Fin 3 → Request (compiled tripSource)
  | 0 => ⟨⟨0, by with_unfolding_all decide⟩, [("name", .str "Ann")]⟩
  | 1 => ⟨⟨1, by with_unfolding_all decide⟩, [("note", .str "Late")]⟩
  | 2 => ⟨⟨0, by with_unfolding_all decide⟩, [("name", .str "")]⟩

theorem store_eq_of_trip :
    Model.ofJson tripSource {} .builtin = .ok (compiled tripSource) ∧
      (Exchange.run tripRequests [] [0, 1, 0, 2, 1, 2]).merged = [0, 1] ∧
      (Exchange.run tripRequests [] [1, 2, 1, 2, 0, 0]).merged = [1, 0] ∧
      (Exchange.run tripRequests [] [0, 1, 0, 2, 1, 2]).store =
        (Exchange.run tripRequests [] [1, 2, 1, 2, 0, 0]).store ∧
      (∀ client, ∃ first second,
        (Exchange.run tripRequests [] [0, 1, 0, 2, 1, 2]).stage client = .settled (.ok first) ∧
          (Exchange.run tripRequests [] [1, 2, 1, 2, 0, 0]).stage client = .settled (.ok second) ∧
            first.Alike second) ∧
      ((tripRequests 0).page.stored (Exchange.run tripRequests [] [0, 1, 0, 2, 1, 2]).store.held).get?
        "name" = some (.str "Ann") := by
  have hmodel : Model.ofJson tripSource {} .builtin = .ok (compiled tripSource) := by
    with_unfolding_all rfl
  have hapart : (compiled tripSource).pages.Pairwise Page.Apart :=
    Model.pairwise_apart (Model.nodup_pagesNames_pagesIn (by with_unfolding_all decide))
      (by with_unfolding_all decide)
  obtain ⟨hstore, hstages, hlast⟩ := Model.store_eq_of_interleavings hapart (Model.orderedParts_nil _)
    tripRequests [0, 1, 0, 2, 1, 2] [1, 2, 1, 2, 0, 0] (by decide +kernel)
  obtain ⟨answers, hanswers, hstored⟩ := hlast (tripRequests 0).place 0 (by decide +kernel)
  have hname : (tripRequests 0).page.answers (tripRequests 0).payload = .ok [("name", .str "Ann")] := by
    decide +kernel
  cases hanswers.symm.trans hname
  obtain ⟨old, hann⟩ := hstored "name" (.str "Ann") rfl
  refine ⟨hmodel, by decide +kernel, by decide +kernel, hstore, fun client => ?_, hann⟩
  exact hstages client (by decide +revert) (by decide +revert)

end Questionnaire
