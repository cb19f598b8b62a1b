import Memberwise.Proofs.Generation.Lifecycle

/-!
# Step by step and in one go

A session may call the steps of a generation with refused calls anywhere in between. It still comes
to what `Declaration.generate` comes to with the first presenter that it calls: refused calls leave
no trace, so only that presenter is ever asked, and emission finds the selection it made.
-/

namespace Memberwise.Session

variable {σ : Type}

/-- Calls that the stage of the session refuses are all refused. -/
theorem run_of_stage_ne {session : Session σ} {calls : List (Call σ)}
    (h : ∀ call ∈ calls, session.generation.stage ≠ call.step.requiredStage) :
    (session.run calls).2 = session ∧
      ∀ reply ∈ (session.run calls).1,
        ∃ step, reply = .error (.outOfOrder session.generation.stage step) := by
  induction calls with
  | nil => simp
  | cons call calls ih =>
    obtain ⟨hlast, hreplies⟩ := ih fun other hother ↦ h other (List.mem_cons_of_mem _ hother)
    rw [run_cons, perform_of_stage_ne (h call List.mem_cons_self)]
    refine ⟨hlast, ?_⟩
    intro reply hreply
    rcases List.mem_cons.mp hreply with rfl | hreply
    · exact ⟨call.step, rfl⟩
    · exact hreplies reply hreply

/-- Before the first selection nothing can happen. -/
theorem run_start_of_step_ne_select (declaration : Declaration) (presenters : σ)
    {calls : List (Call σ)} (h : ∀ call ∈ calls, call.step ≠ .select) :
    ((start declaration presenters).run calls).2 = start declaration presenters ∧
      ∀ reply ∈ ((start declaration presenters).run calls).1,
        ∃ step, reply = .error (.outOfOrder .analyzed step) := by
  apply run_of_stage_ne
  intro call hcall hstage
  have hstep := h call hcall
  cases call with
  | select presenter => exact hstep rfl
  | emit => cases hstage
  | markInserted => cases hstage

/-! ## After the first selection -/

namespace Coherent

variable {declaration : Declaration} {session : Session σ}

/-- What a call can do once the selection is over. -/
theorem perform_cases (h : Coherent declaration session.generation)
    (hstage : session.generation.stage ≠ .analyzed) (call : Call σ) :
    (session.perform call =
      (.error (.outOfOrder session.generation.stage call.step), session)) ∨
    (session.generation.stage = .selected ∧ session.perform call =
      (.ok (.built (Generation.constructorFor session.generation.analysis
          session.generation.selection)),
        { session with generation := { session.generation with stage := .emitted } })) ∨
    (session.generation.stage = .emitted ∧ session.perform call =
      (.ok .noted,
        { session with generation := { session.generation with stage := .inserted } })) := by
  by_cases hrequired : session.generation.stage = call.step.requiredStage
  · cases call with
    | select presenter => exact absurd hrequired hstage
    | emit =>
      exact .inr (.inl
        ⟨hrequired, perform_emit_of_constructor hrequired h.constructor?_eq_some⟩)
    | markInserted =>
      exact .inr (.inr ⟨hrequired, perform_markInserted_of_stage_eq hrequired⟩)
  · exact .inl (perform_of_stage_ne hrequired)

/-- Once the selection is over, no presenter is asked, and what is built is the constructor for
that selection. -/
theorem run_of_stage_ne_analyzed (h : Coherent declaration session.generation)
    (hstage : session.generation.stage ≠ .analyzed) (calls : List (Call σ)) :
    (session.run calls).2.presenters = session.presenters ∧
      ∀ built, .ok (.built built) ∈ (session.run calls).1 →
        session.generation.stage = .selected ∧
          built = Generation.constructorFor session.generation.analysis
            session.generation.selection := by
  induction calls generalizing session with
  | nil => simp
  | cons call calls ih =>
    have hnext := (h.perform call).1
    rw [run_cons]
    rcases h.perform_cases hstage call with hrefused | ⟨hselected, hbuilds⟩ | ⟨hemitted, hnotes⟩
    · rw [hrefused]
      obtain ⟨hpresenters, hreplies⟩ := ih h hstage
      refine ⟨hpresenters, ?_⟩
      intro built hmem
      exact hreplies built (by simpa using hmem)
    · rw [hbuilds] at hnext ⊢
      obtain ⟨hpresenters, hreplies⟩ := ih hnext (by simp)
      refine ⟨hpresenters, ?_⟩
      intro built hmem
      rcases List.mem_cons.mp hmem with hhead | htail
      · exact ⟨hselected, by simpa using hhead⟩
      · exact absurd (hreplies built htail).1 (by simp)
    · rw [hnotes] at hnext ⊢
      obtain ⟨hpresenters, hreplies⟩ := ih hnext (by simp)
      refine ⟨hpresenters, ?_⟩
      intro built hmem
      exact absurd (hreplies built (by simpa using hmem)).1 (by simp)

/-- With a selection made, the first call of emission builds its constructor. -/
theorem built_mem_run (h : Coherent declaration session.generation)
    (hstage : session.generation.stage = .selected) {calls : List (Call σ)}
    (hemit : .emit ∈ calls) :
    .ok (.built (Generation.constructorFor session.generation.analysis
      session.generation.selection)) ∈ (session.run calls).1 := by
  induction calls with
  | nil => simp at hemit
  | cons call calls ih =>
    rw [run_cons]
    cases call with
    | emit =>
      rw [perform_emit_of_constructor hstage h.constructor?_eq_some]
      exact List.mem_cons_self
    | select presenter =>
      rw [perform_of_stage_ne (by rw [hstage]; nofun)]
      exact List.mem_cons_of_mem _ (ih (by simpa using hemit))
    | markInserted =>
      rw [perform_of_stage_ne (by rw [hstage]; nofun)]
      exact List.mem_cons_of_mem _ (ih (by simpa using hemit))

/-- No call meets a selection with foreign candidates. -/
theorem foreignSelection_not_mem_run (h : Coherent declaration session.generation)
    (calls : List (Call σ)) : .error .foreignSelection ∉ (session.run calls).1 := by
  induction calls generalizing session with
  | nil => simp
  | cons call calls ih =>
    have hnext := (h.perform call).1
    have horderly := h.orderly
    rw [run_cons, List.mem_cons, not_or]
    refine ⟨?_, ih hnext⟩
    by_cases hstage : session.generation.stage = call.step.requiredStage
    · cases call with
      | select presenter =>
        rw [horderly.selects presenter hstage]
        split <;> simp
      | emit =>
        obtain ⟨built, hbuilds⟩ := horderly.emits hstage
        rw [hbuilds]
        simp
      | markInserted =>
        rw [horderly.inserts hstage]
        simp
    · rw [horderly.refuses call hstage]
      simp

end Coherent

/-! ## The whole run -/

/-- The first selection of a session, beside the generation in one go. -/
inductive FirstSelection (declaration : Declaration) (session : Session σ) :
    Except GenerationError Reply → Except GenerationError Generated → Prop where
  | failed (cause : SelectionError) (hstage : session.generation.stage = .failed) :
    FirstSelection declaration session (.error (.selection cause)) (.error (.selection cause))
  | cancelled (hstage : session.generation.stage = .cancelled) :
    FirstSelection declaration session (.ok (.reached .cancelled)) (.ok .cancelled)
  | selected (hstage : session.generation.stage = .selected) :
    FirstSelection declaration session (.ok (.reached .selected))
      (.ok (.emitted (Generation.constructorFor session.generation.analysis
        session.generation.selection)))

namespace FirstSelection

variable {declaration : Declaration} {session : Session σ}
  {reply : Except GenerationError Reply} {result : Except GenerationError Generated}

theorem stage_ne_analyzed (h : FirstSelection declaration session reply result) :
    session.generation.stage ≠ .analyzed := by
  cases h with
  | failed _ hstage => rw [hstage]; nofun
  | cancelled hstage => rw [hstage]; nofun
  | selected hstage => rw [hstage]; nofun

theorem reply_ne_built (h : FirstSelection declaration session reply result)
    (built : Constructor) : reply ≠ .ok (.built built) := by
  cases h <;> nofun

theorem result_ne_foreignSelection (h : FirstSelection declaration session reply result) :
    result ≠ .error .foreignSelection := by
  cases h <;> nofun

theorem reply_of_error {cause : GenerationError}
    (h : FirstSelection declaration session reply (.error cause)) : reply = .error cause := by
  cases h with
  | failed _ _ => rfl

theorem reply_of_cancelled (h : FirstSelection declaration session reply (.ok .cancelled)) :
    reply = .ok (.reached .cancelled) := by
  cases h with
  | cancelled _ => rfl

/-- What is built later on is what is built in one go. -/
theorem result_of_built_mem_run (h : FirstSelection declaration session reply result)
    (hcoherent : Coherent declaration session.generation) {after : List (Call σ)}
    {built : Constructor} (hmem : .ok (.built built) ∈ (session.run after).1) :
    result = .ok (.emitted built) := by
  have hbuilds := (hcoherent.run_of_stage_ne_analyzed h.stage_ne_analyzed after).2
  obtain ⟨hselected, rfl⟩ := hbuilds built hmem
  cases h with
  | failed _ hstage => rw [hstage] at hselected; cases hselected
  | cancelled hstage => rw [hstage] at hselected; cases hselected
  | selected _ => rfl

/-- What is built in one go is built later on, once emission is called. -/
theorem built_mem_run_of_result {built : Constructor}
    (h : FirstSelection declaration session reply (.ok (.emitted built)))
    (hcoherent : Coherent declaration session.generation) {after : List (Call σ)}
    (hemit : .emit ∈ after) : .ok (.built built) ∈ (session.run after).1 := by
  cases h with
  | selected hstage => exact hcoherent.built_mem_run hstage hemit

end FirstSelection

theorem perform_start_select (declaration : Declaration) (presenters : σ)
    (presenter : Presenter σ) :
    let first := (start declaration presenters).perform (.select presenter)
    let whole := declaration.generate presenter presenters
    FirstSelection declaration first.2 first.1 whole.1 ∧ first.2.presenters = whole.2 := by
  intro first whole
  have hstart : (start declaration presenters).generation.stage = .analyzed := rfl
  rcases hrequest : Selection.request presenter declaration.analysis.candidates presenters
    with ⟨cause | chosen | _, next⟩
  · have hreply := perform_select_of_error hstart hrequest
    have hresult := Declaration.generate_of_error hrequest
    simp only [first, whole, hreply, hresult]
    exact ⟨.failed cause rfl, trivial⟩
  · have hreply := perform_select_of_selected hstart hrequest
    have hresult := Declaration.generate_of_selected hrequest
    simp only [first, whole, hreply, hresult]
    exact ⟨.selected rfl, trivial⟩
  · have hreply := perform_select_of_cancelled hstart hrequest
    have hresult := Declaration.generate_of_cancelled hrequest
    simp only [first, whole, hreply, hresult]
    exact ⟨.cancelled rfl, trivial⟩

/-- A run up to its first selection, and from there on. -/
theorem run_start_first_select (declaration : Declaration) (presenters : σ)
    (presenter : Presenter σ) (before after : List (Call σ))
    (hfirst : ∀ call ∈ before, call.step ≠ .select) :
    let first := (start declaration presenters).perform (.select presenter)
    ∃ refusals : List (Except GenerationError Reply),
      (start declaration presenters).run (before ++ .select presenter :: after) =
        (refusals ++ first.1 :: (first.2.run after).1, (first.2.run after).2) ∧
      refusals.length = before.length ∧
      ∀ reply ∈ refusals, ∃ step, reply = .error (.outOfOrder .analyzed step) := by
  obtain ⟨hlast, hrefusals⟩ := run_start_of_step_ne_select declaration presenters hfirst
  refine ⟨((start declaration presenters).run before).1, ?_, length_run _ _, hrefusals⟩
  rw [run_append, hlast, run_cons]

/-- A run whose first selection asks `presenter` and the generation in one go with `presenter`:
emission builds the same constructor, the selection comes to the same end, and the presenters are
left in the same state. -/
theorem run_agrees_with_generate (declaration : Declaration) (presenters : σ)
    (presenter : Presenter σ) (before after : List (Call σ))
    (hfirst : ∀ call ∈ before, call.step ≠ .select) :
    let ran := (start declaration presenters).run (before ++ .select presenter :: after)
    let whole := declaration.generate presenter presenters
    (.error .foreignSelection ∉ ran.1 ∧ whole.1 ≠ .error .foreignSelection) ∧
    (∀ built, .ok (.built built) ∈ ran.1 → whole.1 = .ok (.emitted built)) ∧
    (∀ built, whole.1 = .ok (.emitted built) → .emit ∈ after → .ok (.built built) ∈ ran.1) ∧
    (whole.1 = .ok .cancelled →
      ran.1[before.length]? = some (.ok (.reached .cancelled)) ∧
        ∀ built, .ok (.built built) ∉ ran.1) ∧
    (∀ cause, whole.1 = .error cause →
      ran.1[before.length]? = some (.error cause) ∧ ∀ built, .ok (.built built) ∉ ran.1) ∧
    ran.2.presenters = whole.2 := by
  intro ran whole
  have hstart : Coherent declaration (start declaration presenters).generation :=
    coherent_start declaration
  have hforeign : .error .foreignSelection ∉ ran.1 := hstart.foreignSelection_not_mem_run _
  let first := (start declaration presenters).perform (.select presenter)
  have hnext : Coherent declaration first.2.generation := (hstart.perform (.select presenter)).1
  obtain ⟨hselection, hpresenters⟩ : FirstSelection declaration first.2 first.1 whole.1 ∧
      first.2.presenters = whole.2 := perform_start_select declaration presenters presenter
  obtain ⟨refusals, hran, hlength, hrefusals⟩ :
      ∃ refusals, ran = (refusals ++ first.1 :: (first.2.run after).1, (first.2.run after).2) ∧
        refusals.length = before.length ∧
        ∀ reply ∈ refusals, ∃ step, reply = .error (.outOfOrder .analyzed step) :=
    run_start_first_select declaration presenters presenter before after hfirst
  have hreply : ran.1[before.length]? = some first.1 := by
    rw [hran, ← hlength]
    simp
  have hbuilt : ∀ built, .ok (.built built) ∈ ran.1 → whole.1 = .ok (.emitted built) := by
    intro built hmem
    rw [hran] at hmem
    rcases List.mem_append.mp hmem with hrefused | hlater
    · obtain ⟨step, hrefused⟩ := hrefusals _ hrefused
      cases hrefused
    rcases List.mem_cons.mp hlater with hfirst | hlater
    · exact absurd hfirst.symm (hselection.reply_ne_built built)
    · exact hselection.result_of_built_mem_run hnext hlater
  refine ⟨⟨hforeign, hselection.result_ne_foreignSelection⟩, hbuilt, ?_, ?_, ?_, ?_⟩
  · intro built hwhole hemit
    rw [hwhole] at hselection
    have hmem := hselection.built_mem_run_of_result hnext hemit
    rw [hran]
    exact List.mem_append_right _ (List.mem_cons_of_mem _ hmem)
  · intro hwhole
    rw [hwhole] at hselection
    refine ⟨hreply.trans (congrArg some hselection.reply_of_cancelled), fun built hmem ↦ ?_⟩
    exact nomatch hwhole.symm.trans (hbuilt built hmem)
  · intro cause hwhole
    rw [hwhole] at hselection
    refine ⟨hreply.trans (congrArg some hselection.reply_of_error), fun built hmem ↦ ?_⟩
    exact nomatch hwhole.symm.trans (hbuilt built hmem)
  · have hlast := (hnext.run_of_stage_ne_analyzed hselection.stage_ne_analyzed after).1
    rw [hran]
    exact hlast.trans hpresenters

/-- A presenter that counts its questions is asked once, whatever is called before and after. -/
theorem run_agrees_with_generate_of_one_field :
    let declaration : Declaration := ⟨"S", none, .tuple [⟨none, some "u8"⟩]⟩
    let counting : Presenter Nat := fun _ count ↦ (.ok (.chosen [0]), count + 1)
    let before : List (Call Nat) := [.emit, .markInserted]
    let after : List (Call Nat) := [.select counting, .markInserted, .emit, .emit]
    let ran := (start declaration 0).run (before ++ .select counting :: after)
    (∀ call ∈ before, call.step ≠ .select) ∧
      .ok (.built (Generation.constructorFor declaration.analysis
        declaration.analysis.candidates)) ∈ ran.1 ∧
      ran.2.presenters = 1 := by
  intro declaration counting before after ran
  have hfirst : ∀ call ∈ before, call.step ≠ .select := by simp [before, Call.step]
  have hrequest : Selection.request counting declaration.analysis.candidates 0 =
      (.ok (.selected declaration.analysis.candidates), 1) := rfl
  have hwhole := Declaration.generate_of_selected hrequest
  obtain ⟨-, -, hbuilt, -, -, hstate⟩ :=
    run_agrees_with_generate declaration 0 counting before after hfirst
  refine ⟨hfirst, hbuilt _ (congrArg Prod.fst hwhole) (by simp [after]), ?_⟩
  rw [hstate, hwhole]

end Memberwise.Session
