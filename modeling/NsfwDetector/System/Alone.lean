import NsfwDetector.System.Finality
import NsfwDetector.System.Replay

/-!
# One attempt that nothing disturbs

No external call of the attempt fails, and nobody else handles its job. Under these rules an
attempt is followed by what the stores hold about its job.
-/

namespace NsfwDetector.Retry

open Effects Effects.Assertion Triple Publication

/-! ## What the stores hold about a job -/

structure View where
  hash : Option VideoJob
  row : Option VideoJob
  result : Prop

def view (s : World) (jobId : String) : View where
  hash := s.kv.hashes (jobKey jobId)
  row := s.db.job? jobId
  result := HasResult s jobId

/-- Postgres has the row of the job, or no row of its work is in the way of one. -/
def Free (s : World) (queued : VideoJob) : Prop :=
  s.db.Known queued.jobId ∨ ¬ ∃ other ∈ s.db.jobs, other.triple = queued.triple

/-- No external failure, and a video has frames. -/
def Healthy : (op : Op) → Outcome PyException (Ans op) → Prop
  | .ffmpeg _, .answered paths => paths ≠ []
  | _, o => ¬ o.Faulty

/-- The calls of caller `i` are healthy, it is not killed, and nobody else handles the job. -/
def Undisturbed (i : Caller) (jobId : String) : StepCond Caller World Ans PyException Reply :=
  fun c l c' =>
    match l with
    | .start _ => True
    | .call e =>
      if e.caller = i then Healthy e.op e.outcome else view c'.state jobId = view c.state jobId
    | .kill j => j ≠ i

/-- Besides, no row of another job of the same work gets in the way. -/
def Unrivalled (i : Caller) (queued : VideoJob) : StepCond Caller World Ans PyException Reply :=
  fun c l c' => Undisturbed i queued.jobId c l c' ∧ Free c'.state queued

/-! ## The rules of an undisturbed attempt -/

/-- A caller, the job that it retries, and what is assumed of every state of the run. -/
structure Watch where
  caller : Caller
  queued : VideoJob
  rule : World → Prop

/-- The caller inserts no row of other work. -/
def OwnWork (queued : VideoJob) : Op → Prop
  | .commit tx => ∀ row, .insertVideoJobOrNothing row ∈ tx → row.triple = queued.triple
  | _ => True

def alone (w : Watch) : Discipline Caller World Ans PyException where
  does j s op o s' := Does j s op o s' ∧ (Sane s' ∧ w.rule s') ∧
    if j = w.caller then Healthy op o else view s' w.queued.jobId = view s w.queued.jobId
  inv s _ := Sane s ∧ w.rule s
  may j _ _ op := j = w.caller → OwnWork w.queued op
  inv_call _ _ hdoes := hdoes.2.1

variable {settings : Settings} {i : Caller} {jobId : String} {w : Watch} {φ : View → Prop} {α : Type}

/-- The stores hold `φ` about the job. -/
def about (w : Watch) (φ : View → Prop) : Assertion (alone w) w.caller where
  holds s _ := φ (view s w.queued.jobId)
  stable {s _ j _ _ s'} hj _ _ hdoes h := by
    have hview := hdoes.2.2
    rw [if_neg hj] at hview
    rwa [hview]

theorem about_holds {s : World} {past : Past} :
    (about w φ).holds s past ↔ φ (view s w.queued.jobId) := Iff.rfl

theorem about_mono {φ ψ : View → Prop} (h : ∀ V, φ V → ψ V) :
    Entails (about w φ) (about w ψ) := fun _ _ _ hφ => h _ hφ

theorem own_call {s s' : World} {op : Op} {o : Outcome PyException (Ans op)}
    (h : (alone w).does w.caller s op o s') : Does w.caller s op o s' ∧ Healthy op o := by
  refine ⟨h.1, ?_⟩
  have hhealthy := h.2.2
  rwa [if_pos rfl] at hhealthy

theorem not_faulty {op : Op} {o : Outcome PyException (Ans op)} (h : Healthy op o) : ¬ o.Faulty := by
  unfold Healthy at h
  split at h
  · exact id
  · exact h

theorem answered_of_healthy {s s' : World} {op : Op} {o : Outcome PyException (Ans op)}
    (hdoes : Does i s op o s') (hhealthy : Healthy op o) (hfree : ∀ e, ¬ Refuses s op e) :
    ∃ b, o = .answered b ∧ Answers i s op b s' := by
  cases o with
  | answered b => exact ⟨b, rfl, hdoes⟩
  | refused e => exact absurd hdoes.1 (hfree e)
  | failed e | lost b e => exact absurd trivial (not_faulty hhealthy)

/-! ## Calls that leave the job alone -/

def Still : Op → Prop
  | .commit _ => False
  | .writes commands => ∀ key job, .hset key job ∉ commands
  | _ => True

def Unforbidden : Op → Prop
  | .xgroupCreate | .xreadgroup _ | .execute _ _ | .commit _ => False
  | _ => True

theorem not_refuses {s : World} {op : Op} (h : Unforbidden op) (e : PyException) :
    ¬ Refuses s op e := by
  cases op <;> first | exact id | exact h.elim

theorem view_of_still {s s' : World} {op : Op} {o : Outcome PyException (Ans op)}
    (hdoes : Does i s op o s') (h : Still op) : view s' jobId = view s jobId := by
  cases hdoes.change with
  | nothing | group | read => rfl
  | commit => exact h.elim
  | @writes commands o heffect =>
    rcases Kvrocks.applyAll_hashes s.kv commands (jobKey jobId) with hsame | ⟨job, hmem, -⟩
    · simp only [view, HasResult, hsame]
    · exact absurd hmem (h _ _)

theorem ownWork_of_still {queued : VideoJob} {op : Op} (h : Still op) : OwnWork queued op := by
  cases op <;> first | exact h.elim | trivial

theorem keeps_about {K : Op → Prop} (hK : ∀ op, K op → Still op) : (about w φ).Keeps K := by
  intro op hop s past o s' _ _ hdoes h
  rw [about_holds] at h ⊢
  rwa [view_of_still hdoes.1 (hK op hop)]

theorem still_of_local {op : Op} (h : op.Local) : Still op := by
  cases op <;> trivial

theorem still {K : Op → Prop} {ψ : α → Prop} {p : Code α} (hK : ∀ op, K op → Still op)
    (hp : p.Within K ψ) :
    Triple (onOk fun a => (about w φ).and (.pure (ψ a))) (about w φ) p :=
  quiet (keeps_about hK) (fun _ _ op hop _ _ _ => ownWork_of_still (hK op hop)) hp

/-- Where nothing of the stores is known, any program within the rules keeps to them. -/
theorem allowed {P : Assertion (alone w) w.caller} {ψ : α → Prop} {p : Code α}
    (hp : p.Within (OwnWork w.queued) ψ) : Triple (onOk fun a => .pure (ψ a)) P p :=
  weaken (entails_top P) (mapOk (fun a => and_right _ (.pure (ψ a)))
    (quiet keeps_top (fun _ _ _ hop _ _ _ => hop) hp))

theorem askView (op : Op) {ψ : Ans op → View → Prop} (hfree : Unforbidden op)
    (hψ : ∀ s b s', φ (view s w.queued.jobId) → Answers w.caller s op b s' →
      Healthy op (.answered b) → ψ b (view s' w.queued.jobId)) :
    Triple (sure fun b => about w (ψ b)) (about w φ) (await op) := by
  have hown : OwnWork w.queued op := by cases op <;> first | exact hfree.elim | trivial
  refine askSure op (fun _ _ _ _ _ => hown) fun s past o s' _ hP hdoes => ?_
  obtain ⟨hcall, hhealthy⟩ := own_call hdoes
  obtain ⟨b, rfl, hanswer⟩ := answered_of_healthy hcall hhealthy (not_refuses hfree)
  exact ⟨b, rfl, hψ s b s' hP hanswer hhealthy⟩

theorem askStill (op : Op) {ψ : Ans op → Prop} (hstill : Still op) (hfree : Unforbidden op)
    (hψ : ∀ s b s', Answers w.caller s op b s' → Healthy op (.answered b) → ψ b) :
    Triple (sure fun b => (about w φ).and (.pure (ψ b))) (about w φ) (await op) := by
  refine mapOk (S := fun b => about w fun V => φ V ∧ ψ b) (fun b => Entails.refl _)
    (askView op hfree fun s b s' hφ hanswer hhealthy => ⟨?_, hψ s b s' hanswer hhealthy⟩)
  have hcall : Does w.caller s op (.answered b) s' := hanswer
  rwa [view_of_still hcall hstill]

theorem pass (op : Op) (hstill : Still op) (hfree : Unforbidden op) :
    Triple (sure fun _ => about w φ) (about w φ) (await op) :=
  mapOk (fun _ => and_left _ _) (askStill op (ψ := fun _ => True) hstill hfree fun _ _ _ _ _ => trivial)

theorem given {Q : Except PyException α → Assertion (alone w) w.caller} {ψ : Prop} {p : Code α}
    (hψ : ∀ V, φ V → ψ) (h : ψ → Triple Q (about w φ) p) : Triple Q (about w φ) p :=
  weaken (P := (about w φ).and (.pure ψ)) (fun _ _ _ hφ => ⟨hφ, hψ _ hφ⟩) (assume h)

/-! ## Reads -/

theorem readHash :
    Triple (sure fun found => about w fun V => φ V ∧ V.hash = found) (about w φ)
      (RedisQueue.getJobById w.queued.jobId) := by
  refine askView (Op.hgetall _) trivial fun s found s' hφ hanswer _ => ?_
  obtain ⟨rfl, rfl⟩ := hanswer
  exact ⟨hφ, rfl⟩

theorem readRow :
    Triple (sure fun found => about w fun V => φ V ∧ V.row = found) (about w φ)
      (await (.selectJob w.queued.jobId)) := by
  refine askView (Op.selectJob _) trivial fun s found s' hφ hanswer _ => ?_
  obtain ⟨rfl, rfl⟩ := hanswer
  exact ⟨hφ, rfl⟩

theorem readWithPoolRetry_sure {S : α → Assertion (alone w) w.caller} {P : Assertion (alone w) w.caller}
    {p : Code α} (hp : Triple (sure S) P p) :
    Triple (sure S) P (readWithPoolRetry settings p) := by
  obtain ⟨rest, hrest⟩ := readWithPoolRetry_eq settings p
  rw [hrest]
  exact tryCatchSure hp

/-! ## Statuses -/

theorem view_hset {s : World} {updated : VideoJob} :
    view { s with kv := s.kv.applyAll [.hset (jobKey jobId) updated] } jobId =
      { view s jobId with hash := some updated.stored } := by
  rw [view, View.mk.injEq]
  exact ⟨Function.update_self .., rfl, rfl⟩

theorem updateStatus_sure {job : VideoJob} {status : VideoJobStatus} {code message : Option String}
    (hφ : ∀ V, φ V → V.hash = some job) :
    Triple (sure fun updated => about w fun V => ∃ now V₁, φ V₁ ∧
        updated = some (job.withStatus status code message now) ∧
        V = { V₁ with hash := some (job.withStatus status code message now).stored })
      (about w φ) (RedisQueue.updateStatus w.queued.jobId status code message) := by
  refine andThen readHash fun found => given (ψ := found = some job)
    (fun V hV => hV.2.symm.trans (hφ V hV.1)) fun hfound => ?_
  subst hfound
  refine weaken (about_mono fun V hV => hV.1) (andThen (pass Op.now trivial trivial) fun now => ?_)
  refine andThen (S := fun _ => about w fun V => ∃ V₁, φ V₁ ∧
      V = { V₁ with hash := some (job.withStatus status code message now).stored }) ?_ fun _ => ?_
  · refine askView (Op.writes _) trivial fun s _ s' hV hanswer _ =>
      ⟨view s w.queued.jobId, hV, ?_⟩
    rw [show s' = _ from hanswer]
    exact view_hset
  · refine give (about_mono fun V hV => ?_)
    obtain ⟨V₁, hV₁, rfl⟩ := hV
    exact ⟨now, V₁, hV₁, rfl, rfl⟩

/-! ## Transactions -/

/-- The writes go through wherever the stores hold `φ`. -/
def Applies (w : Watch) (φ : View → Prop) (tx : List Write) : Prop :=
  ∀ s now, Sane s → φ (view s w.queued.jobId) → ∃ db, s.db.applyAll now tx = .ok db

theorem Applies.left {tx : List Write} (rest : List Write) (h : Applies w φ (tx ++ rest)) :
    Applies w φ tx := by
  intro s now hsane hφ
  obtain ⟨db, hdb⟩ := h s now hsane hφ
  obtain ⟨c, hc, -⟩ := Db.applyAll_append_ok.mp hdb
  exact ⟨c, hc⟩

theorem Applies.not_refused {s : World} {now : Time} {tx : List Write} {e : PyException}
    (h : Applies w φ tx) (hsane : Sane s) (hφ : φ (view s w.queued.jobId)) :
    s.db.applyAll now tx ≠ .error e := by
  obtain ⟨db, hdb⟩ := h s now hsane hφ
  rw [hdb]
  exact nofun

theorem execute_sure {tx : List Write} {write : Write} (h : Applies w φ (tx ++ [write])) :
    Triple (sure fun all => (about w φ).and (.pure (all = tx ++ [write]))) (about w φ)
      (execute tx write) := by
  refine andThen (S := fun _ => about w φ) (askSure (Op.execute tx write) (fun _ _ _ _ _ => trivial)
    fun s past o s' hinv hP hdoes => ?_) fun _ => give fun _ _ _ hφ => ⟨hφ, rfl⟩
  obtain ⟨hcall, hhealthy⟩ := own_call hdoes
  obtain ⟨b, rfl, hanswer⟩ := answered_of_healthy hcall hhealthy
    fun e ⟨now, he⟩ => h.not_refused hinv.1 hP he
  refine ⟨b, rfl, ?_⟩
  rw [about_holds, view_of_still hcall trivial]
  exact hP

theorem executeAll_sure (tx : List Write) {rest : List Write} (h : Applies w φ (tx ++ rest)) :
    Triple (sure fun all => (about w φ).and (.pure (all = tx ++ rest))) (about w φ)
      (executeAll tx rest) := by
  induction rest generalizing tx with
  | nil => exact give fun _ _ _ hφ => ⟨hφ, (List.append_nil tx).symm⟩
  | cons write rest ih =>
    rw [← List.singleton_append, ← List.append_assoc] at h
    refine andThen (execute_sure (h.left rest)) fun all => assume fun hall => ?_
    subst hall
    have hrest := ih _ h
    rwa [List.append_assoc, List.singleton_append] at hrest

theorem commit_sure {tx : List Write} {ψ : View → Prop} (h : Applies w φ tx)
    (hown : OwnWork w.queued (.commit tx))
    (hψ : ∀ s now db, w.rule s → φ (view s w.queued.jobId) → s.db.applyAll now tx = .ok db →
      ψ (view { s with db := db } w.queued.jobId)) :
    Triple (sure fun _ => about w ψ) (about w φ) (commit tx) := by
  refine andThen (S := fun _ => about w ψ) (askSure (Op.commit tx) (fun _ _ _ _ _ => hown)
    fun s past o s' hinv hP hdoes => ?_) fun _ => give (Entails.refl _)
  obtain ⟨hcall, hhealthy⟩ := own_call hdoes
  obtain ⟨now, rfl, db, hdb, rfl⟩ := answered_of_healthy hcall hhealthy
    fun e ⟨now, he⟩ => h.not_refused hinv.1 hP he
  exact ⟨now, rfl, hψ s now db hinv.2 hP hdb⟩

theorem commit_needs {tx : List Write} {ψ : Prop} (hown : OwnWork w.queued (.commit tx))
    (h : ∀ s now db, φ (view s w.queued.jobId) → s.db.applyAll now tx = .ok db → ψ) :
    Triple (onOk fun _ => about w fun _ => ψ) (about w φ) (commit tx) := by
  refine andThen (S := fun _ => about w fun _ => ψ) (ask (Op.commit tx) (fun _ _ _ _ _ => hown)
    fun s past now s' _ hP hdoes => ?_) fun _ => give (Entails.refl _)
  obtain ⟨db, hdb, -⟩ := hdoes.1
  exact h s now db hP hdb

end NsfwDetector.Retry
