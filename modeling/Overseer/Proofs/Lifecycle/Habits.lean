import Overseer.Proofs.Lifecycle.Runs

/-!
# Habits of a daemon

A habit is a relation between a daemon and what becomes of it that every access to the word, every
binding and every transition keeps to, the latter as far as the hook it runs does. Then all
operations keep to it, and all programs over them, however deep hooks nest and however a run ends.
What hooks say is limited by a predicate on records, which a habit may rely on.
-/

namespace Overseer

variable {σ α β : Type}

/-! ### What hooks say -/

mutual

/-- All that is said by hooks that the operation binds satisfies `Q`. -/
def Op.Says (Q : Record → Prop) : Op σ → Prop
  | .bind _ hook => hook.Says Q
  | .bindAll hooks => ∀ slot, (hooks slot).Says Q
  | _ => True

/-- All that the program says, itself and through the hooks it binds, satisfies `Q`. -/
def Program.Says (Q : Record → Prop) : Program σ → Prop
  | .done _ => True
  | .panic _ => True
  | .perform op next => op.Says Q ∧ ∀ a, (next a).Says Q
  | .touch change next =>
    (∀ app, ∀ r ∈ (change app).2, Q r) ∧ ∀ app, (next app).Says Q

end

mutual

lemma Op.says_true : ∀ op : Op σ, op.Says fun _ => True
  | .bind _ hook => hook.says_true
  | .bindAll hooks => fun slot => (hooks slot).says_true
  | .state | .isRunning | .describe | .request _ | .requestReload | .setState _ | .startAll
  | .poll | .closeAll | .clearHooks | .raise _ | .send _ _ | .install => trivial

lemma Program.says_true : ∀ p : Program σ, p.Says fun _ => True
  | .done _ => trivial
  | .panic _ => trivial
  | .perform op next => ⟨op.says_true, fun a => (next a).says_true⟩
  | .touch _ next => ⟨fun _ _ _ => trivial, fun app => (next app).says_true⟩

end

/-- All that is said by the hooks that are bound satisfies `Q`. -/
def Daemon.Binds (Q : Record → Prop) (d : Daemon σ) : Prop :=
  ∀ slot hook, d.slots slot = some hook → hook.Says Q

/-! ### Habits -/

/-- The run leaves a daemon that `R` relates to the one it was begun with. -/
def Act.Keeps (R : Daemon σ → Daemon σ → Prop) (x : Act σ α) : Prop := ∀ d, R d (x d).2

lemma Act.andThen_keeps {R : Daemon σ → Daemon σ → Prop} {x : Act σ α} {f : α → Act σ β}
    {d : Daemon σ} (htrans : ∀ {d d' d'' : Daemon σ}, R d d' → R d' d'' → R d d'')
    (hx : R d (x d).2) (hf : ∀ a, (f a).Keeps R) : R d (x.andThen f d).2 := by
  rcases hrun : x d with ⟨a | m | _, d'⟩ <;> rw [hrun] at hx
  · rw [andThen_returned hrun]
    exact htrans hx (hf a d')
  · rw [andThen_panicked hrun]
    exact hx
  · rw [andThen_unfinished hrun]
    exact hx

lemma Act.Keeps.andThen {R : Daemon σ → Daemon σ → Prop} {x : Act σ α} {f : α → Act σ β}
    (htrans : ∀ {d d' d'' : Daemon σ}, R d d' → R d' d'' → R d d'') (hx : x.Keeps R)
    (hf : ∀ a, (f a).Keeps R) : (x.andThen f).Keeps R :=
  fun d => andThen_keeps htrans (hx d) hf

/-- What comes in keeps to what each request keeps to. -/
lemma Daemon.keeps_arrive {R : Daemon σ → Daemon σ → Prop} (refl : ∀ d : Daemon σ, R d d)
    (trans : ∀ {d d' d'' : Daemon σ}, R d d' → R d' d'' → R d d'')
    (ask : ∀ (d : Daemon σ) (s : State), R d (d.ask s))
    (later : ∀ (d : Daemon σ) (as : List (List Arrival)), R d { d with arrivals := as })
    (d : Daemon σ) : R d d.arrive := by
  have hreceive (d : Daemon σ) (a : Arrival) : R d (d.receive a) := by
    cases a with
    | request s => exact ask d s
    | signal s =>
      simp only [receive, hear]
      split
      · exact ask d _
      · exact refl d
  have hfold (as : List Arrival) (d : Daemon σ) : R d (as.foldl receive d) := by
    induction as generalizing d with
    | nil => exact refl d
    | cons a as ih => exact trans (hreceive d a) (ih _)
  unfold arrive
  split
  · exact refl d
  · exact trans (later d _) (hfold _ _)

/-- What is told besides transitions and changes of the word or the slots. -/
def Event.isAside : Event σ → Bool
  | .loaded _ | .superseded _ | .killed _ | .began _ | .ended _ _ => true
  | .logged r => r.level = .debug || r.source = .signals
  | _ => false

/-- Every access to the word and every binding keeps to `R`. Hooks say only what satisfies `Q`. -/
structure Daemon.Manner (Q : Record → Prop) (R : Daemon σ → Daemon σ → Prop) : Prop where
  refl : ∀ d : Daemon σ, R d d
  trans : ∀ {d d' d'' : Daemon σ}, R d d' → R d' d'' → R d d''
  arrive : ∀ d : Daemon σ, R d d.arrive
  ask : ∀ (d : Daemon σ) (s : State), R d (d.ask s)
  aside : ∀ (d : Daemon σ) (e : Event σ), e.isAside = true → R d (d.note e)
  put : ∀ (d : Daemon σ) (s : State), R d ({ d with word := s }.note (.stored none s))
  bind : ∀ (d : Daemon σ) (slot : Slot) (hook : Program σ), hook.Says Q →
    R d ({ d with slots := fun s => if s = slot then some hook else d.slots s }.note
      (.bound slot hook))
  bindAll : ∀ (d : Daemon σ) (hooks : Slot → Program σ), (∀ slot, (hooks slot).Says Q) →
    R d ({ d with slots := fun s => some (hooks s) }.note (.boundAll hooks))
  clear : ∀ d : Daemon σ, R d ({ d with slots := fun _ => none }.note .cleared)
  listen : ∀ d : Daemon σ, R d { d with installed := true }
  touch : ∀ (d : Daemon σ) (app : σ) (rs : Records), (∀ r ∈ rs, Q r) →
    R d { d with app := app, trace := d.trace ++ rs.map .logged }

/-- So does every transition whose hook keeps to it. -/
structure Daemon.Habit (Q : Record → Prop) (R : Daemon σ → Daemon σ → Prop) : Prop
    extends Daemon.Manner Q R where
  starting : ∀ n : Nat, (∀ p : Program σ, p.Says Q → (p.run (Daemon.perform n)).Keeps R) →
    (Daemon.startAll (Program.run (Daemon.perform n))).Keeps R
  handling : ∀ (n : Nat) (r : State),
    (∀ p : Program σ, p.Says Q → (p.run (Daemon.perform n)).Keeps R) → r.isTransient = true →
    (Daemon.dispatch (Program.run (Daemon.perform n)) r).Keeps R
  closing : ∀ n : Nat, (∀ p : Program σ, p.Says Q → (p.run (Daemon.perform n)).Keeps R) →
    (Daemon.closeAll (Program.run (Daemon.perform n))).Keeps R

/-- The operation makes no transition. -/
def Op.isAccess : Op σ → Bool
  | .startAll | .poll | .closeAll => false
  | _ => true

/-- On this daemon the operation makes no transition. -/
def Op.IsQuietOn (d : Daemon σ) (op : Op σ) : Prop :=
  op.isAccess = true ∨ op = .poll ∧ d.arrive.word.isTransient = false

namespace Daemon

open Act

variable {Q : Record → Prop} {R : Daemon σ → Daemon σ → Prop}

/-! ### Quiet operations -/

namespace Manner

variable (h : Manner Q R)
include h

lemma done (a : α) : (Act.done a : Act σ α).Keeps R := h.refl

lemma get : (Act.get : Act σ (Daemon σ)).Keeps R := h.refl

lemma andThen {x : Act σ α} {f : α → Act σ β} (hx : x.Keeps R) (hf : ∀ a, (f a).Keeps R) :
    (x.andThen f).Keeps R :=
  hx.andThen h.trans hf

lemma hear (d : Daemon σ) (s : OsSignal) : R d (d.hear s) := by
  unfold Daemon.hear
  split
  · exact h.ask d _
  · exact h.refl d

lemma load : (Act.load : Act σ State).Keeps R :=
  fun d => h.trans (h.arrive d) (h.aside _ _ rfl)

lemma request (s : State) : (Act.request s : Act σ Bool).Keeps R :=
  fun d => h.trans (h.arrive d) (h.ask _ s)

lemma note {e : Event σ} (he : e.isAside = true) : (Act.note e).Keeps R := fun d => h.aside d e he

/-- What the daemon mentions by the way. -/
lemma log {level : Level} {source : Source} (message : String)
    (he : (Event.logged ⟨level, source, message⟩ : Event σ).isAside = true) :
    (Act.log level source message : Act σ Unit).Keeps R := h.note he

lemma send (signal : ControlSignal) (pid : Nat) :
    (send signal pid : Act σ (Except Failure Unit)).Keeps R := by
  unfold Daemon.send
  split
  · exact h.done _
  · refine h.andThen (h.note rfl) fun _ => h.andThen h.get fun d => ?_
    split
    · split
      · exact h.andThen (fun d => h.hear d _) fun _ =>
          h.andThen (h.log _ rfl) fun _ => h.done _
      · exact h.andThen (h.log _ rfl) fun _ => h.done _
    · exact h.done _

lemma install : (install : Act σ Unit).Keeps R := by
  unfold Daemon.install
  refine h.andThen h.get fun d => ?_
  split
  · exact h.done ()
  · exact h.andThen h.listen fun _ => h.log _ rfl

/-- A poll that finds nothing to handle only looks. -/
lemma poll_of_settled {run : Program σ → Act σ Outcome} {d : Daemon σ}
    (hd : d.arrive.word.isTransient = false) : R d (poll run d).2 := by
  have hresolve : ((Act.load : Act σ State).andThen fun resolved =>
      Act.done resolved.isAlive).Keeps R := h.andThen h.load fun _ => h.done _
  simp only [Daemon.poll, bind_eq, pure_eq]
  rw [andThen_returned (show Act.load d = (.returned d.arrive.word, _) from rfl), hd,
    if_neg Bool.false_ne_true]
  exact h.trans (h.load d) (hresolve _)

lemma access {run : Program σ → Act σ Outcome} {op : Op σ} (hop : op.Says Q)
    (haccess : op.isAccess = true) : (execute run op).Keeps R := by
  cases op with
  | state => exact h.andThen h.load fun _ => h.done _
  | isRunning => exact h.andThen h.load fun _ => h.done _
  | describe =>
    exact h.andThen (h.andThen h.load fun _ => h.done _) fun _ =>
      h.andThen h.get fun _ => h.done _
  | request s => exact h.andThen (h.request s) fun _ => h.done _
  | requestReload =>
    exact h.andThen (h.andThen (h.request .reload) fun _ => h.done _) fun _ => h.done _
  | setState s =>
    have hput : (Act.store none s : Act σ Unit).Keeps R :=
      fun d => h.trans (h.arrive d) (h.put _ s)
    exact h.andThen (h.log _ rfl) fun _ => h.andThen hput fun _ => h.done _
  | startAll | poll | closeAll => cases haccess
  | bind slot hook => exact h.andThen (fun d => h.bind d slot hook hop) fun _ => h.done _
  | bindAll hooks =>
    exact h.andThen (fun d => h.bindAll d hooks hop) fun _ =>
      h.andThen (h.log _ rfl) fun _ => h.done _
  | clearHooks => exact h.andThen h.clear fun _ => h.done _
  | raise signal =>
    exact h.andThen (fun d => h.trans (h.arrive d) (h.hear _ signal)) fun _ => h.done _
  | send signal pid => exact h.andThen (h.send signal pid) fun _ => h.done _
  | install => exact h.andThen h.install fun _ => h.done _

/-- Where it makes no transition, an operation keeps to what every access keeps to. -/
lemma execute {run : Program σ → Act σ Outcome} {op : Op σ} (hop : op.Says Q) {d : Daemon σ}
    (hquiet : op.IsQuietOn d) : R d (execute run op d).2 := by
  rcases hquiet with haccess | ⟨rfl, hd⟩
  · exact h.access hop haccess d
  · exact andThen_keeps h.trans (h.poll_of_settled hd) fun _ => h.done _

end Manner

/-! ### Operations and programs -/

namespace Habit

section

variable (h : Habit Q R)
include h

lemma poll {n : Nat} (hrun : ∀ p : Program σ, p.Says Q → (p.run (Daemon.perform n)).Keeps R) :
    (poll (Program.run (Daemon.perform n))).Keeps R := by
  refine h.andThen h.load fun current => ?_
  split
  · rename_i hcurrent
    exact h.andThen (h.handling n current hrun hcurrent) fun _ =>
      h.andThen h.load fun _ => h.done _
  · exact h.andThen h.load fun _ => h.done _

lemma execute {n : Nat} (hrun : ∀ p : Program σ, p.Says Q → (p.run (Daemon.perform n)).Keeps R)
    {op : Op σ} (hop : op.Says Q) : (execute (Program.run (Daemon.perform n)) op).Keeps R := by
  cases op with
  | startAll => exact h.andThen (h.starting n hrun) fun _ => h.done _
  | poll => exact h.andThen (h.poll hrun) fun _ => h.done _
  | closeAll => exact h.andThen (h.closing n hrun) fun _ => h.done _
  | _ => exact h.access hop rfl

lemma run {perform : Op σ → Act σ Answer} (hperform : ∀ op, op.Says Q → (perform op).Keeps R) :
    ∀ p : Program σ, p.Says Q → (p.run perform).Keeps R
  | .done o, _ => h.done o
  | .panic _, _ => h.refl
  | .perform op next, hp => by
    rw [Program.run]
    refine h.andThen (fun d => ?_) fun a => run hperform (next a) (hp.2 a)
    have hd := hperform op hp.1 d
    unfold Act.attempt
    split
    · rename_i heq
      rwa [heq] at hd
    · exact hd
  | .touch change next, hp => fun d =>
    h.trans (h.touch d (change d.app).1 (change d.app).2 (hp.1 d.app))
      (run hperform (next d.app) (hp.2 d.app) _)

/-- An operation keeps to the habit, whatever the hooks do that it runs. -/
theorem perform (depth : Nat) {op : Op σ} (hop : op.Says Q) : (perform depth op).Keeps R := by
  induction depth generalizing op with
  | zero => exact h.refl
  | succ n ih =>
    have hrun (p : Program σ) (hp : p.Says Q) : (p.run (Daemon.perform n)).Keeps R :=
      h.run (fun _ => ih) p hp
    rw [Daemon.perform]
    exact h.andThen (h.note (e := .began op) rfl) fun _ => h.andThen (h.execute hrun hop) fun a =>
      h.andThen (h.note (e := .ended op a) rfl) fun _ => h.done a

/-- A program keeps to the habit. -/
theorem program (depth : Nat) {p : Program σ} (hp : p.Says Q) :
    (p.run (Daemon.perform depth)).Keeps R :=
  h.run (fun _ hop => h.perform depth hop) p hp

end

/-! ### Habits that take no notice of what is told -/

section

variable (refl : ∀ d : Daemon σ, R d d)
  (trans : ∀ {d d' d'' : Daemon σ}, R d d' → R d' d'' → R d d'')
  (arrive : ∀ d : Daemon σ, R d d.arrive) (note : ∀ (d : Daemon σ) (e : Event σ), R d (d.note e))
  (write : ∀ (d : Daemon σ) (s : State), R d { d with word := s })
  (settle : ∀ (d : Daemon σ) (slots : Slot → Option (Program σ)), R d { d with slots := slots })
  (listen : ∀ d : Daemon σ, R d { d with installed := true })
  (touch : ∀ (d : Daemon σ) (app : σ) (es : List (Event σ)),
    R d { d with app := app, trace := d.trace ++ es })

include refl trans note in
lemma keeps_invoke_of_note {run : Program σ → Act σ Outcome} (hrun : ∀ p, (run p).Keeps R)
    (t : Transition) : (invoke run t).Keeps R := by
  intro d
  have hcall : (call run (d.slots t.slot)).Keeps R := by
    cases d.slots t.slot with
    | none => exact refl
    | some p => exact hrun p
  have hrest : ((call run (d.slots t.slot)).andThen fun o =>
      (Act.note (.returned t o)).andThen fun _ => Act.done o).Keeps R :=
    hcall.andThen trans fun _ => Keeps.andThen trans (fun d => note d _) fun _ => refl
  rw [invoke_eq]
  exact trans (note d _) (hrest _)

include refl trans arrive note write settle listen touch in
/-- A relation that every event, every word and all slots keep to is a habit. -/
lemma of_note : Habit (fun _ => True) R := by
  have hstore (w : Option Transition) (s : State) : (Act.store w s : Act σ Unit).Keeps R :=
    fun d => trans (arrive d) (trans (write _ s) (note _ _))
  have htake (r : State) : (Act.take r : Act σ Bool).Keeps R := by
    intro d
    refine trans (arrive d) ?_
    simp only [Act.take]
    split
    · exact trans (write _ _) (note _ _)
    · exact note _ _
  have hinvoke := @keeps_invoke_of_note σ R refl trans note
  have hlog (e : Event σ) : (Act.note e).Keeps R := fun d => note d e
  exact {
    refl, trans, arrive, listen
    ask := fun d s => by
      unfold Daemon.ask
      split
      · exact note d _
      · exact trans (write d s) (note _ _)
    aside := fun d e _ => note d e
    put := fun d s => trans (write d s) (note _ _)
    bind := fun d _ _ _ => trans (settle d _) (note _ _)
    bindAll := fun d _ _ => trans (settle d _) (note _ _)
    clear := fun d => trans (settle d _) (note _ _)
    touch := fun d app _ _ => touch d app _
    starting := fun n hrun => by
      simp only [Daemon.startAll, bind_eq, pure_eq]
      refine Keeps.andThen trans (hstore _ _) fun _ => ?_
      refine Keeps.andThen trans (hinvoke (fun p => hrun p p.says_true) _) fun _ => ?_
      exact Keeps.andThen trans (hlog _) fun _ => refl
    handling := fun n r hrun _ => by
      rw [dispatch_eq]
      refine Keeps.andThen trans (htake r) fun b => ?_
      split
      · refine Keeps.andThen trans (hinvoke (fun p => hrun p p.says_true) _) fun o => ?_
        unfold settleRequest
        split
        · exact Keeps.andThen trans (hstore _ _) fun _ => hlog _
        · exact hlog _
      · exact refl
    closing := fun n hrun => by
      simp only [Daemon.closeAll, bind_eq, pure_eq]
      refine Keeps.andThen trans (hstore _ _) fun _ => ?_
      refine Keeps.andThen trans (hinvoke (fun p => hrun p p.says_true) _) fun _ => ?_
      exact Keeps.andThen trans (hlog _) fun _ => refl }

end

end Habit

end Daemon

end Overseer
