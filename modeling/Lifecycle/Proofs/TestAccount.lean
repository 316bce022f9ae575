import Lifecycle.Proofs.OffendingKey
import Lifecycle.Proofs.SampleAccount

/-!
# Each subject is tested or skipped

The subjects of a collection are gone through in order, and each has one outcome: a test, or a
notice that names the subject and the key that its data is refused for. Whichever it is, the next
subject starts from the generator that this one has left behind. What else is logged on the way to a
test is not about skipping.
-/
namespace Lifecycle

/-- Whether a notice says that a test is left out. -/
def Notice.skipsTest : Notice → Bool
  | .methodTestSkipped _ _ => true
  | .resourceTestSkipped _ _ => true
  | _ => false

namespace Logged

/-- No test is said to be left out. -/
def Unskipping {α : Type} (x : Logged α) : Prop :=
  ∀ n ∈ x.notices, n.skipsTest = false

variable {α β : Type}

theorem unskipping_pure (a : α) : Unskipping (pure a : Logged α) := by
  intro n h
  cases h

theorem unskipping_note {n : Notice} (h : n.skipsTest = false) : Unskipping (note n) := by
  intro n' h'
  obtain rfl := List.mem_singleton.mp h'
  exact h

theorem unskipping_noteIf (condition : Bool) {n : Notice} (h : n.skipsTest = false) :
    Unskipping (noteIf condition n) := by
  cases condition with
  | true => exact unskipping_note h
  | false => exact unskipping_pure ()

theorem Unskipping.bind {x : Logged α} {f : α → Logged β} (hx : Unskipping x)
    (hf : ∀ a, Unskipping (f a)) : Unskipping (x >>= f) := by
  intro n h
  rw [notices_bind, List.mem_append] at h
  exact h.elim (hx n) (hf x.value n)

theorem unskipping_mapM {f : α → Logged β} (hf : ∀ a, Unskipping (f a)) (xs : List α) :
    Unskipping (xs.mapM f) := by
  induction xs with
  | nil => exact unskipping_pure []
  | cons x rest ih =>
    rw [List.mapM_cons]
    exact (hf x).bind fun y => ih.bind fun ys => unskipping_pure (y :: ys)

end Logged

open Logged

theorem unskipping_call (e : Example) (collection : String) (m : Method) (name : String) :
    Unskipping (e.call collection m name) := by
  unfold Example.call
  refine (unskipping_mapM (fun p => ?_) m.parameters).bind fun _ => unskipping_pure _
  exact (unskipping_noteIf _ rfl).bind fun _ => unskipping_pure _

theorem unskipping_stageCalls (e : Example) (m : Method) (stages : List Stage) :
    Unskipping (e.stageCalls m stages) := by
  induction stages with
  | nil => exact unskipping_pure []
  | cons stage rest ih =>
    rw [Example.stageCalls]
    refine (unskipping_noteIf _ rfl).bind fun _ => ih.bind fun calls => ?_
    cases stage.setter <;> exact unskipping_pure _

namespace Client

variable (client : Client)

theorem unskipping_hasFixedName (create : Binding) : Unskipping (client.hasFixedName create) := by
  unfold hasFixedName
  split
  · exact unskipping_pure true
  · split
    · exact unskipping_pure _
    · exact (unskipping_note rfl).bind fun _ => unskipping_pure true

theorem unskipping_defineMethod (r : Resource) : Unskipping (client.defineMethod r) := by
  unfold defineMethod
  split
  · exact unskipping_pure none
  · refine (unskipping_note rfl).bind fun _ => ?_
    refine (client.unskipping_hasFixedName _).bind fun fixed => ?_
    split
    · exact (unskipping_pure none).bind fun _ => unskipping_pure _
    · exact (unskipping_noteIf _ rfl).bind fun _ => (unskipping_pure _).bind fun _ =>
        unskipping_pure _

theorem unskipping_noteParent (r : Resource) (create : Binding) :
    Unskipping (client.noteParent r create) := by
  unfold noteParent parentParameters
  split
  · exact ((client.unskipping_hasFixedName create).bind fun _ => unskipping_pure _).bind
      fun _ => unskipping_noteIf _ rfl
  · exact unskipping_pure _

theorem unskipping_definitionStages (r : Resource) : Unskipping (client.definitionStages r) := by
  unfold definitionStages
  split
  · exact unskipping_pure []
  · exact (client.unskipping_noteParent r _).bind fun _ => unskipping_pure _

theorem unskipping_create (e : Example) (r : Resource) (m : Method) (name : String) :
    Unskipping (e.create client r m name) := by
  unfold Example.create
  refine (client.unskipping_defineMethod r).bind fun define => ?_
  split
  · refine (unskipping_noteIf _ rfl).bind fun _ => ?_
    refine (client.unskipping_definitionStages r).bind fun stages => ?_
    exact (unskipping_stageCalls e m stages).bind fun _ => unskipping_pure _
  · exact unskipping_pure none

end Client

namespace Mock

/-- What becomes of a subject. -/
inductive Outcome
  | tested (test : Test)
  | skipped (notice : Notice)

def Outcome.test? : Outcome → Option Test
  | .tested test => some test
  | .skipped _ => none

def Outcome.notice? : Outcome → Option Notice
  | .tested _ => none
  | .skipped notice => some notice

/-- What a test says of its subject. -/
structure Test.Describes (t : Test) (c : Collection) (subject : Subject) : Prop where
  name : t.name = testName c.name subject.tested.name
  collection : t.collection = c.name
  method : t.method = subject.tested.name
  status : t.response.status = subject.tested.operation.expectedStatusCodes.head?.getD 200

/-- Whether a subject can be called with whatever arguments: what is to be created has a create. -/
def Subject.Callable : Subject → Prop
  | .method _ => True
  | .create r _ => r.create.isSome = true

variable {γ : Type} [Generator γ] {client : Client} {c : Collection}

/-- From a generator, a subject has an outcome and leaves a generator behind. -/
inductive Decides (client : Client) (c : Collection) (subject : Subject) (g : γ) :
    Outcome → γ → Prop
  | tested {e : Example} {g₁ g₂ : γ} {t : Test}
      (requested : (request client.schemas subject.tested).run g = (.ok e, g₁))
      (called : (subject.call client c e).value = some t.call)
      (answered : (response client.schemas subject.tested).run g₁ =
        (.ok (t.response, t.verified), g₂))
      (describes : t.Describes c subject) : Decides client c subject g (.tested t) g₂
  | requestRefused {refusal : Refusal} {g₁ : γ}
      (requested : (request client.schemas subject.tested).run g = (.error refusal, g₁))
      (offending : suggestsSecret refusal.key = true) :
      Decides client c subject g (.skipped (subject.skipped refusal)) g₁
  | responseRefused {e : Example} {refusal : Refusal} {g₁ g₂ : γ}
      (requested : (request client.schemas subject.tested).run g = (.ok e, g₁))
      (answered : (response client.schemas subject.tested).run g₁ = (.error refusal, g₂))
      (offending : suggestsSecret refusal.key = true) :
      Decides client c subject g (.skipped (subject.skipped refusal)) g₂

/-- Subjects have one outcome each, in order, each from the generator that the one before has left
behind. -/
inductive Accounts (client : Client) (c : Collection) : γ → List Subject → List Outcome → γ → Prop
  | done (g : γ) : Accounts client c g [] [] g
  | next {g g₁ g₂ : γ} {subject : Subject} {outcome : Outcome} {rest : List Subject}
      {outcomes : List Outcome} (first : Decides client c subject g outcome g₁)
      (others : Accounts client c g₁ rest outcomes g₂) :
      Accounts client c g (subject :: rest) (outcome :: outcomes) g₂

/-! ### One subject -/

theorem skipsTest_skipped (subject : Subject) (refusal : Refusal) :
    (subject.skipped refusal).skipsTest = true := by
  cases subject <;> rfl

theorem unskipping_subjectCall (client : Client) (c : Collection) (e : Example)
    (subject : Subject) : Unskipping (subject.call client c e) := by
  cases subject with
  | method m => exact (unskipping_call e c.name m m.name).bind fun _ => unskipping_pure _
  | create r m => exact (client.unskipping_create e r m m.name).bind fun _ => unskipping_pure _

theorem isSome_subjectCall {subject : Subject} (h : subject.Callable) (e : Example) :
    (subject.call client c e).value.isSome = true := by
  cases subject with
  | method m => rfl
  | create r m =>
    obtain ⟨create, hc⟩ := Option.isSome_iff_exists.mp h
    unfold Subject.call
    rw [Logged.value_bind, Logged.value_pure, Option.isSome_map]
    exact client.isSome_create hc e m m.name

/-- A response has the status that the method expects first. -/
theorem yields_status (schemas : List Schema) (m : Method) :
    Yields (response schemas m : Draw γ (Response × String))
      fun a => a.1.status = statusOf m := by
  unfold response
  split
  · exact (yields_any _).bind fun _ _ => yields_pure rfl
  · dsimp only
    split
    · exact (yields_any _).bind fun _ _ => yields_pure rfl
    · exact (yields_any _).bind fun _ _ => yields_pure rfl

section

variable {subject : Subject} {g g₁ g₂ : γ} {e : Example} {call : TestCall} {refusal : Refusal}

/-- A refused request ends the test before its call is made. -/
theorem test_of_request_refused
    (hr : (request client.schemas subject.tested).run g = (.error refusal, g₁)) :
    test client c g subject = ⟨(none, g₁), [subject.skipped refusal]⟩ := by
  unfold test
  dsimp only
  rw [hr]
  rfl

/-- A refused response skips the test after the call, whose notices stay. -/
theorem test_of_response_refused
    (hr : (request client.schemas subject.tested).run g = (.ok e, g₁))
    (hc : (subject.call client c e).value = some call)
    (ha : (response client.schemas subject.tested).run g₁ = (.error refusal, g₂)) :
    test client c g subject =
      ⟨(none, g₂), (subject.call client c e).notices ++ [subject.skipped refusal]⟩ := by
  unfold test
  dsimp only
  rw [hr]
  change Logged.mk _ _ = _
  dsimp only
  rw [hc]
  dsimp only
  rw [ha]
  rfl

def Subject.testWith (subject : Subject) (c : Collection) (call : TestCall)
    (answer : Response × String) : Test :=
  ⟨testName c.name subject.tested.name, c.name, subject.tested.name, call, answer.1, answer.2⟩

theorem test_of_granted {answer : Response × String}
    (hr : (request client.schemas subject.tested).run g = (.ok e, g₁))
    (hc : (subject.call client c e).value = some call)
    (ha : (response client.schemas subject.tested).run g₁ = (.ok answer, g₂)) :
    test client c g subject =
      ⟨(some (subject.testWith c call answer), g₂), (subject.call client c e).notices⟩ := by
  unfold test
  dsimp only
  rw [hr]
  change Logged.mk _ _ = _
  dsimp only
  rw [hc]
  dsimp only
  rw [ha]
  change Logged.mk _ (_ ++ []) = _
  rw [List.append_nil]
  rfl

end

theorem filter_skipsTest {α : Type} {x : Logged α} (h : Unskipping x) :
    x.notices.filter (·.skipsTest) = [] := by
  rw [List.filter_eq_nil_iff]
  intro n hn
  rw [h n hn]
  decide

theorem filter_skipsTest_warnings {α : Type} (x : Logged α) :
    x.warnings.filter (·.skipsTest) = x.notices.filter (·.skipsTest) := by
  rw [warnings, List.filter_filter]
  congr 1
  funext n
  cases n <;> rfl

/-- A subject has one outcome: what `test` returns and what it logs are told by it. -/
theorem decides_test (client : Client) (c : Collection) {subject : Subject}
    (h : subject.Callable) (g : γ) :
    ∃ outcome, Decides client c subject g outcome (test client c g subject).value.2 ∧
      (test client c g subject).value.1 = outcome.test? ∧
      (test client c g subject).notices.filter (·.skipsTest) = outcome.notice?.toList := by
  have hskip (refusal : Refusal) :
      [subject.skipped refusal].filter (·.skipsTest) = [subject.skipped refusal] :=
    List.filter_eq_self.mpr fun n hn => by
      rw [List.mem_singleton.mp hn]
      exact skipsTest_skipped subject refusal
  rcases hr : (request client.schemas subject.tested).run g with ⟨refusal | e, g₁⟩
  · rw [test_of_request_refused hr]
    have hoff := blames_request client.schemas subject.tested g refusal (by rw [hr])
    exact ⟨.skipped (subject.skipped refusal), .requestRefused hr hoff, rfl, hskip refusal⟩
  · obtain ⟨call, hc⟩ := Option.isSome_iff_exists.mp (isSome_subjectCall (c := c) h e)
    have hcall := filter_skipsTest (unskipping_subjectCall client c e subject)
    rcases ha : (response client.schemas subject.tested).run g₁ with ⟨refusal | answer, g₂⟩
    · rw [test_of_response_refused hr hc ha]
      have hoff := blames_response client.schemas subject.tested g₁ refusal (by rw [ha])
      refine ⟨.skipped (subject.skipped refusal), .responseRefused hr ha hoff, rfl, ?_⟩
      rw [List.filter_append, hcall, hskip]
      rfl
    · rw [test_of_granted hr hc ha]
      have hs := yields_status client.schemas subject.tested g₁ answer (by rw [ha])
      have hd : (subject.testWith c call answer).Describes c subject := by
        refine ⟨rfl, rfl, rfl, hs.trans ?_⟩
        rw [statusOf, List.headD_eq_head?_getD]
      exact ⟨.tested (subject.testWith c call answer), .tested hr hc ha hd, rfl, hcall⟩

/-! ### All subjects of a collection -/

theorem testsOf_cons (g : γ) (subject : Subject) (rest : List Subject) :
    let first := test client c g subject
    let others := testsOf client c first.value.2 rest
    testsOf client c g (subject :: rest) =
      ⟨(first.value.1.toList ++ others.value.1, others.value.2),
        first.notices ++ others.notices⟩ := by
  intro first others
  change Logged.mk _ (first.notices ++ (others.notices ++ [])) = _
  rw [List.append_nil]
  rfl

/-- By induction on the subjects, handing the generator on. -/
theorem accounts_testsOf {subjects : List Subject} (h : ∀ subject ∈ subjects, subject.Callable)
    (g : γ) :
    ∃ outcomes, Accounts client c g subjects outcomes (testsOf client c g subjects).value.2 ∧
      (testsOf client c g subjects).value.1 = outcomes.filterMap Outcome.test? ∧
      (testsOf client c g subjects).notices.filter (·.skipsTest) =
        outcomes.filterMap Outcome.notice? := by
  induction subjects generalizing g with
  | nil => exact ⟨[], .done g, rfl, rfl⟩
  | cons subject rest ih =>
    rw [List.forall_mem_cons] at h
    obtain ⟨outcome, hd, ht, hn⟩ := decides_test client c h.1 g
    obtain ⟨outcomes, ha, hts, hns⟩ := ih h.2 (test client c g subject).value.2
    rw [testsOf_cons]
    refine ⟨outcome :: outcomes, .next hd ha, ?_, ?_⟩
    · dsimp only
      rw [ht, hts, List.filterMap_cons]
      cases outcome.test? <;> rfl
    · rw [List.filter_append, hn, hns, List.filterMap_cons]
      cases outcome.notice? <;> rfl

theorem Accounts.exists_decides {g g' : γ} {subjects : List Subject} {outcomes : List Outcome}
    (ha : Accounts client c g subjects outcomes g') {outcome : Outcome} (ho : outcome ∈ outcomes) :
    ∃ subject ∈ subjects, ∃ before after : γ, Decides client c subject before outcome after := by
  induction ha with
  | done g => cases ho
  | next first _ ih =>
    rcases List.mem_cons.mp ho with rfl | ho
    · exact ⟨_, List.mem_cons_self, _, _, first⟩
    · obtain ⟨subject, hs, hd⟩ := ih ho
      exact ⟨subject, List.mem_cons_of_mem _ hs, hd⟩

theorem mem_testsOfAll_iff {t : Test} {g : γ} {rest : List Collection} :
    t ∈ (testsOfAll client g (c :: rest)).value.1 ↔
      t ∈ (testsOf client c g (subjects client c)).value.1 ∨
        t ∈ (testsOfAll client (testsOf client c g (subjects client c)).value.2 rest).value.1 :=
  List.mem_append

/-- The tests of a collection, made from a generator, account for all that is to be tested. -/
structure TestsAccounted (client : Client) (c : Collection) (g : γ) : Prop where
  /-- plain methods come first, then the resources that the collection creates -/
  eligible : ∃ created : List (Resource × Binding),
    List.Forall₂ (fun i p => client.resources[i]? = some p.1 ∧ p.1.create = some p.2)
      c.creates created ∧
    subjects client c =
      ((client.plainMethods c).filter fun m => m.sendsJson && isTested m).map .method ++
        created.filterMap fun p =>
          ((client.references p.2).find? fun m => m.sendsJson && isTested m).map (.create p.1)
  accounted : ∃ outcomes g', Accounts client c g (subjects client c) outcomes g' ∧
    (testsOf client c g (subjects client c)).value = (outcomes.filterMap Outcome.test?, g') ∧
    (testsOf client c g (subjects client c)).warnings.filter (·.skipsTest) =
      outcomes.filterMap Outcome.notice?

/-- Subjects are taken from resources that have what their calls need. -/
theorem callable_of_mem_subjects {subject : Subject} (h : subject ∈ subjects client c) :
    subject.Callable := by
  rcases List.mem_append.mp h with hm | hm
  · obtain ⟨m, _, rfl⟩ := List.mem_map.mp hm
    trivial
  · obtain ⟨⟨r, b⟩, hrb, hs⟩ := List.mem_filterMap.mp hm
    obtain ⟨m, _, rfl⟩ := Option.map_eq_some_iff.mp hs
    obtain ⟨i, _, hi⟩ := List.mem_filterMap.mp hrb
    have hb : r.create = some b := (Client.boundResource?_eq_some.mp hi).2
    rw [Subject.Callable, hb]
    rfl

theorem Outcome.eq_tested_of_test? {outcome : Outcome} {t : Test} (h : outcome.test? = some t) :
    outcome = .tested t := by
  cases outcome with
  | tested _ => exact congrArg Outcome.tested (Option.some.inj h)
  | skipped _ => cases h

/-- A test that is made anywhere was made for a subject of one of the collections. -/
theorem exists_decides_of_mem_testsOfAll {collections : List Collection} {g : γ} {t : Test}
    (ht : t ∈ (testsOfAll client g collections).value.1) :
    ∃ c ∈ collections, ∃ subject ∈ subjects client c, ∃ before after : γ,
      Decides client c subject before (.tested t) after := by
  induction collections generalizing g with
  | nil => cases ht
  | cons c rest ih =>
    rcases mem_testsOfAll_iff.mp ht with ht | ht
    · obtain ⟨outcomes, ha, hts, _⟩ :=
        accounts_testsOf (c := c) (fun _ hs => callable_of_mem_subjects hs) g
      rw [hts] at ht
      obtain ⟨outcome, ho, ht⟩ := List.mem_filterMap.mp ht
      obtain rfl := Outcome.eq_tested_of_test? ht
      obtain ⟨subject, hs, hd⟩ := ha.exists_decides ho
      exact ⟨c, List.mem_cons_self, subject, hs, hd⟩
    · obtain ⟨d, hd, hs⟩ := ih ht
      exact ⟨d, List.mem_cons_of_mem c hd, hs⟩

/-- Every resource that a collection lists as created has a create. -/
theorem forall₂_boundResources (h : client.Consistent) {j : Nat}
    (hc : client.collections[j]? = some c) :
    List.Forall₂ (fun i p => client.resources[i]? = some p.1 ∧ p.1.create = some p.2) c.creates
      (client.boundResources c .create) := by
  have hall : ∀ i ∈ c.creates, ∃ b, client.bindingAt? .create i = some b :=
    fun i hi => h.exists_binding (List.mem_of_getElem? hc) hi
  change List.Forall₂ _ c.creates (c.creates.filterMap _)
  generalize c.creates = creates at hall ⊢
  induction creates with
  | nil => exact .nil
  | cons i rest ih =>
    rw [List.forall_mem_cons] at hall
    obtain ⟨⟨b, hb⟩, hrest⟩ := hall
    obtain ⟨r, hr, hb⟩ := Option.bind_eq_some_iff.mp hb
    rw [List.filterMap_cons_some (Client.boundResource?_eq_some.mpr ⟨hr, hb⟩)]
    exact .cons ⟨hr, hb⟩ (ih hrest)

end Mock

/-- In the client of a service, each method and each resource that is to be tested has one outcome,
whatever the state of the generator. -/
theorem Assembly.tests_accounted {γ : Type} [Generator γ] (a : Assembly) (service : Service)
    {j : Nat} {c : Collection} (hc : (a.client service).value.collections[j]? = some c) (g : γ) :
    Mock.TestsAccounted (a.client service).value c g := by
  constructor
  · exact ⟨(a.client service).value.boundResources c .create,
      Mock.forall₂_boundResources (a.consistent_client service) hc, rfl⟩
  · obtain ⟨outcomes, ha, ht, hn⟩ :=
      Mock.accounts_testsOf (fun _ hs => Mock.callable_of_mem_subjects hs) g
    refine ⟨outcomes, _, ha, Prod.ext ht rfl, ?_⟩
    rw [Mock.filter_skipsTest_warnings, hn]

namespace Workshop

/-- Tools are unlocked with a code, which must not be made up. -/
def lockedTools : Service where
  name := "Workshop"
  schemas :=
    [identified "ToolInner",
      ⟨"Lock", none, [], [⟨"code", "accessCode", .string, true, false, false, none⟩]⟩]
  groups :=
    [⟨"tools",
      [operation "createOrUpdate" .put toolUrl [body "ToolInner"] "ToolInner",
        operation "unlock" .post (toolUrl ++ "/unlock") [body "Lock"] "ToolInner",
        { operation "get" .get toolUrl [] "ToolInner" with expectedStatusCodes := [201, 200] }]⟩]

end Workshop

theorem tests_in_workshop :
    let client := ((Assembly.fresh .standard).client Workshop.lockedTools).value
    let g : Mock.Counter := ⟨0⟩
    ∃ c, client.collections[0]? = some c ∧
      (Mock.testsOf client c g (Mock.subjects client c)).value.1.map
          (fun t => (t.method, t.response.status)) =
        [("getWithResponse", 201), ("createOrUpdateWithResponse", 200)] ∧
      (Mock.testsOf client c g (Mock.subjects client c)).warnings.filter (·.skipsTest) =
        [.methodTestSkipped "unlockWithResponse" "accessCode"] ∧
      Mock.TestsAccounted client c g := by
  intro client g
  have h : (client.collections[0]?.any fun c =>
      (Mock.testsOf client c g (Mock.subjects client c)).value.1.map
          (fun t => (t.method, t.response.status)) ==
        [("getWithResponse", 201), ("createOrUpdateWithResponse", 200)] &&
      (Mock.testsOf client c g (Mock.subjects client c)).warnings.filter (·.skipsTest) ==
        [.methodTestSkipped "unlockWithResponse" "accessCode"]) = true := by decide +kernel
  obtain ⟨c, hc, hb⟩ := Option.any_eq_true _ _ |>.mp h
  rw [Bool.and_eq_true, beq_iff_eq, beq_iff_eq] at hb
  exact ⟨c, hc, hb.1, hb.2, Assembly.tests_accounted (.fresh .standard) Workshop.lockedTools hc g⟩

end Lifecycle
