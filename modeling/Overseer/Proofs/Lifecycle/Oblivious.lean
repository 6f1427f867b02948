import Overseer.Proofs.Lifecycle.Runs

/-!
# What was told does not matter

A trace is written and never read: whatever was told of a daemon before, an operation ends the same
way and tells the same. Two daemons that differ in nothing else are one to every program.
-/

namespace Overseer

variable {σ α β : Type}

namespace Daemon

/-- The daemon, with something told before all that its trace tells. -/
def recalling (past : List (Event σ)) (d : Daemon σ) : Daemon σ :=
  { d with trace := past ++ d.trace }

/-- The daemons differ at most in what was told of them. -/
def Resembles (d d' : Daemon σ) : Prop := d' = { d with trace := d'.trace }

variable {d d' d'' : Daemon σ}

namespace Resembles

lemma symm (h : d.Resembles d') : d'.Resembles d := by
  rw [Resembles, h]

lemma trans (h : d.Resembles d') (h' : d'.Resembles d'') : d.Resembles d'' := by
  rw [Resembles] at h h' ⊢
  rw [h', h]

lemma word_eq (h : d.Resembles d') : d'.word = d.word := by
  rw [h]

lemma slots_eq (h : d.Resembles d') : d'.slots = d.slots := by
  rw [h]

end Resembles

lemma resembles_recalling (past : List (Event σ)) (d : Daemon σ) :
    d.Resembles (d.recalling past) := rfl

/-- A daemon as if nothing had been told of it yet. -/
def untold (d : Daemon σ) : Daemon σ := { d with trace := [] }

lemma recalling_untold (d : Daemon σ) : d.untold.recalling d.trace = d := by
  rw [recalling, untold, List.append_nil]

lemma Resembles.untold_eq (h : d.Resembles d') : d'.untold = d.untold := by
  rw [h, untold, untold]

lemma note_recalling (past : List (Event σ)) (d : Daemon σ) (e : Event σ) :
    (d.recalling past).note e = (d.note e).recalling past := by
  simp only [recalling, note, List.append_assoc]

/-! ### What comes in -/

lemma ask_recalling (past : List (Event σ)) (d : Daemon σ) (s : State) :
    (d.recalling past).ask s = (d.ask s).recalling past := by
  have hword : (d.recalling past).word = d.word := rfl
  by_cases hw : d.word = .stop
  · rw [ask, ask, hword, if_pos hw, if_pos hw, note_recalling]
  · rw [ask, ask, hword, if_neg hw, if_neg hw]
    exact note_recalling past { d with word := s } _

lemma hear_recalling (past : List (Event σ)) (d : Daemon σ) (s : OsSignal) :
    (d.recalling past).hear s = (d.hear s).recalling past := by
  have hheard : ((d.recalling past).attached && (d.recalling past).installed) =
      (d.attached && d.installed) := rfl
  rw [hear, hear, hheard]
  split
  · exact ask_recalling past d _
  · rfl

lemma receive_recalling (past : List (Event σ)) (d : Daemon σ) (a : Arrival) :
    (d.recalling past).receive a = (d.receive a).recalling past := by
  cases a with
  | request s => exact ask_recalling past d s
  | signal s => exact hear_recalling past d s

lemma foldl_receive_recalling (past : List (Event σ)) (d : Daemon σ) (as : List Arrival) :
    as.foldl receive (d.recalling past) = (as.foldl receive d).recalling past := by
  induction as generalizing d with
  | nil => rfl
  | cons a as ih => rw [List.foldl_cons, List.foldl_cons, receive_recalling, ih]

lemma arrive_recalling (past : List (Event σ)) (d : Daemon σ) :
    (d.recalling past).arrive = (d.arrive).recalling past := by
  have harrivals : (d.recalling past).arrivals = d.arrivals := rfl
  rw [arrive, arrive, harrivals]
  split
  · rfl
  · exact foldl_receive_recalling past { d with arrivals := _ } _

end Daemon

namespace Act

open Daemon

/-- Whatever was told before, the run ends the same way, leaves the same and tells the same. -/
def IsOblivious (x : Act σ α) : Prop :=
  ∀ past d, x (d.recalling past) = ((x d).1, (x d).2.recalling past)

variable {x : Act σ α} {f : α → Act σ β}

lemma isOblivious_done (a : α) : (done a : Act σ α).IsOblivious := fun _ _ => rfl

lemma isOblivious_panic (m : String) : (panic m : Act σ α).IsOblivious := fun _ _ => rfl

lemma isOblivious_giveUp : (giveUp : Act σ α).IsOblivious := fun _ _ => rfl

lemma IsOblivious.andThen (hx : x.IsOblivious) (hf : ∀ a, (f a).IsOblivious) :
    (x.andThen f).IsOblivious := by
  intro past d
  rcases hrun : x d with ⟨a | m | _, d'⟩
  · have hpast := hx past d
    rw [hrun] at hpast
    rw [andThen_returned hrun, andThen_returned hpast, hf a past d']
  · have hpast := hx past d
    rw [hrun] at hpast
    rw [andThen_panicked hrun, andThen_panicked hpast]
  · have hpast := hx past d
    rw [hrun] at hpast
    rw [andThen_unfinished hrun, andThen_unfinished hpast]

lemma IsOblivious.attempt {x : Act σ Answer} (hx : x.IsOblivious) : x.attempt.IsOblivious := by
  intro past d
  rcases hrun : x d with ⟨a | m | _, d'⟩ <;>
    simp only [Act.attempt, hx past d, hrun]

/-- Nothing that was told can be seen in what is looked at. -/
lemma isOblivious_get_andThen {f : Daemon σ → Act σ β}
    (hsame : ∀ past d, f (d.recalling past) = f d) (hf : ∀ d, (f d).IsOblivious) :
    (get.andThen f).IsOblivious := by
  intro past d
  show f (d.recalling past) (d.recalling past) = _
  rw [hsame, hf d past d]
  rfl

lemma isOblivious_modify {g : Daemon σ → Daemon σ}
    (hg : ∀ past d, g (d.recalling past) = (g d).recalling past) : (modify g).IsOblivious := by
  intro past d
  simp only [modify, hg]

lemma isOblivious_note (e : Event σ) : (note e).IsOblivious :=
  isOblivious_modify fun past d => note_recalling past d e

lemma isOblivious_log (level : Level) (source : Source) (message : String) :
    (log level source message : Act σ Unit).IsOblivious := isOblivious_note _

lemma isOblivious_load : (load : Act σ State).IsOblivious := by
  intro past d
  simp only [load, arrive_recalling, note_recalling]
  rfl

lemma isOblivious_store (writer : Option Transition) (s : State) :
    (store writer s : Act σ Unit).IsOblivious := by
  intro past d
  simp only [store, arrive_recalling]
  exact congrArg (Prod.mk _) (note_recalling past { d.arrive with word := s } _)

lemma isOblivious_request (s : State) : (request s : Act σ Bool).IsOblivious := by
  intro past d
  simp only [request, arrive_recalling, ask_recalling]
  rfl

lemma isOblivious_take (r : State) : (take r : Act σ Bool).IsOblivious := by
  intro past d
  have hword : (d.arrive.recalling past).word = d.arrive.word := rfl
  simp only [take, arrive_recalling, hword]
  split
  · exact congrArg (Prod.mk _) (note_recalling past { d.arrive with word := .running } _)
  · exact congrArg (Prod.mk _) (note_recalling past d.arrive _)

end Act

/-- A program is as oblivious as its operations. -/
lemma Program.isOblivious_run {perform : Op σ → Act σ Answer}
    (h : ∀ op, (perform op).IsOblivious) (p : Program σ) : (p.run perform).IsOblivious := by
  cases p with
  | done o => exact Act.isOblivious_done o
  | panic m => exact Act.isOblivious_panic m
  | perform op next =>
    rw [Program.run]
    exact (h op).attempt.andThen fun a => Program.isOblivious_run h (next a)
  | touch change next =>
    intro past d
    have hrest := Program.isOblivious_run h (next d.app) past
      { d with app := (change d.app).1, trace := d.trace ++ (change d.app).2.map .logged }
    rw [Daemon.recalling, ← List.append_assoc] at hrest
    exact hrest

namespace Daemon

open Act

variable {d d' : Daemon σ}

lemma isOblivious_install : (install : Act σ Unit).IsOblivious := by
  simp only [install, bind_eq, pure_eq]
  refine isOblivious_get_andThen ?_ fun d => ?_
  · exact fun _ _ => rfl
  split
  · exact isOblivious_done ()
  · exact (isOblivious_modify fun _ _ => rfl).andThen fun _ => isOblivious_log _ _ _

lemma isOblivious_send (signal : ControlSignal) (pid : Nat) :
    (send signal pid : Act σ (Except Failure Unit)).IsOblivious := by
  unfold send
  split
  · exact isOblivious_done _
  · simp only [bind_eq, pure_eq]
    refine (isOblivious_note _).andThen fun _ => isOblivious_get_andThen ?_ fun d => ?_
    · exact fun _ _ => rfl
    split
    · split
      · exact (isOblivious_modify fun past d => hear_recalling past d _).andThen fun _ =>
          (isOblivious_log _ _ _).andThen fun _ => isOblivious_done _
      · exact (isOblivious_log _ _ _).andThen fun _ => isOblivious_done _
    · exact isOblivious_done _

section

variable {run : Program σ → Act σ Outcome} (hrun : ∀ p, (run p).IsOblivious)
include hrun

lemma isOblivious_invoke (t : Transition) : (invoke run t).IsOblivious := by
  intro past d
  have hcall : (call run (d.slots t.slot)).IsOblivious := by
    cases d.slots t.slot with
    | none => exact isOblivious_done _
    | some p => exact hrun p
  have hslots : (d.recalling past).slots = d.slots := rfl
  have hword : (d.recalling past).word = d.word := rfl
  rw [invoke_eq, invoke_eq, hslots, hword, note_recalling]
  exact hcall.andThen (fun o => (isOblivious_note _).andThen fun _ => isOblivious_done o) past _

lemma isOblivious_startAll : (startAll run).IsOblivious := by
  simp only [startAll, bind_eq, pure_eq]
  refine (isOblivious_store _ _).andThen fun _ => (isOblivious_invoke hrun _).andThen fun o => ?_
  exact (isOblivious_log _ _ _).andThen fun _ => isOblivious_done o

lemma isOblivious_closeAll : (closeAll run).IsOblivious := by
  simp only [closeAll, bind_eq, pure_eq]
  refine (isOblivious_store _ _).andThen fun _ => (isOblivious_invoke hrun _).andThen fun o => ?_
  exact (isOblivious_log _ _ _).andThen fun _ => isOblivious_done o

lemma isOblivious_dispatch (r : State) : (dispatch run r).IsOblivious := by
  rw [dispatch_eq]
  refine (isOblivious_take r).andThen fun b => ?_
  split
  · refine (isOblivious_invoke hrun _).andThen fun o => ?_
    unfold settleRequest
    split
    · exact (isOblivious_store _ _).andThen fun _ => isOblivious_log _ _ _
    · exact isOblivious_log _ _ _
  · exact isOblivious_done ()

lemma isOblivious_poll : (poll run).IsOblivious := by
  simp only [poll, bind_eq, pure_eq]
  refine isOblivious_load.andThen fun current => ?_
  split
  · exact (isOblivious_dispatch hrun current).andThen fun _ =>
      isOblivious_load.andThen fun _ => isOblivious_done _
  · exact isOblivious_load.andThen fun _ => isOblivious_done _

lemma isOblivious_execute (op : Op σ) : (execute run op).IsOblivious := by
  unfold execute
  cases op with
  | state => exact isOblivious_load.andThen fun _ => isOblivious_done _
  | isRunning => exact isOblivious_load.andThen fun _ => isOblivious_done _
  | describe =>
    have hload : ((Act.load : Act σ State).andThen fun _ => done ()).IsOblivious :=
      isOblivious_load.andThen fun _ => isOblivious_done ()
    refine hload.andThen fun _ => isOblivious_get_andThen ?_ fun d => isOblivious_done _
    exact fun _ _ => rfl
  | request s => exact (isOblivious_request s).andThen fun _ => isOblivious_done _
  | requestReload =>
    exact ((isOblivious_request _).andThen fun _ => isOblivious_done _).andThen fun _ =>
      isOblivious_done _
  | setState s =>
    exact (isOblivious_log _ _ _).andThen fun _ =>
      (isOblivious_store _ s).andThen fun _ => isOblivious_done _
  | startAll => exact (isOblivious_startAll hrun).andThen fun _ => isOblivious_done _
  | poll => exact (isOblivious_poll hrun).andThen fun _ => isOblivious_done _
  | closeAll => exact (isOblivious_closeAll hrun).andThen fun _ => isOblivious_done _
  | bind slot hook =>
    exact (isOblivious_modify fun past d => note_recalling past { d with slots := _ } _).andThen
      fun _ => isOblivious_done _
  | bindAll hooks =>
    exact (isOblivious_modify fun past d => note_recalling past { d with slots := _ } _).andThen
      fun _ => (isOblivious_log _ _ _).andThen fun _ => isOblivious_done _
  | clearHooks =>
    exact (isOblivious_modify fun past d => note_recalling past { d with slots := _ } _).andThen
      fun _ => isOblivious_done _
  | raise signal =>
    refine IsOblivious.andThen (isOblivious_modify fun past d => ?_) fun _ => isOblivious_done _
    rw [arrive_recalling, hear_recalling]
  | send signal pid => exact (isOblivious_send signal pid).andThen fun _ => isOblivious_done _
  | install => exact isOblivious_install.andThen fun _ => isOblivious_done _

end

lemma isOblivious_perform (depth : Nat) (op : Op σ) : (perform depth op).IsOblivious := by
  induction depth generalizing op with
  | zero => exact isOblivious_giveUp
  | succ n ih =>
    rw [perform]
    exact (isOblivious_note _).andThen fun _ =>
      (isOblivious_execute (Program.isOblivious_run ih) op).andThen fun a =>
        (isOblivious_note _).andThen fun _ => isOblivious_done a

/-- A run ends the same way on daemons that differ in what was told of them, tells the same of them
and leaves them without a difference besides. -/
lemma Resembles.run {x : Act σ α} (hx : x.IsOblivious) (h : d.Resembles d') :
    (x d).1 = (x d').1 ∧ (x d).2.Resembles (x d').2 ∧
      ∃ es, (x d).2.trace = d.trace ++ es ∧ (x d').2.trace = d'.trace ++ es := by
  have hd : x d = ((x d.untold).1, (x d.untold).2.recalling d.trace) := by
    rw [← hx, recalling_untold]
  have hd' : x d' = ((x d.untold).1, (x d.untold).2.recalling d'.trace) := by
    rw [← hx, ← h.untold_eq, recalling_untold]
  rw [hd, hd']
  refine ⟨rfl, ?_, (x d.untold).2.trace, rfl, rfl⟩
  exact (resembles_recalling d.trace _).symm.trans (resembles_recalling d'.trace _)

lemma resembles_arrive (h : d.Resembles d') : d.arrive.Resembles d'.arrive :=
  (h.run (isOblivious_modify arrive_recalling)).2.1

/-- No program tells the daemons apart: it ends the same way on both, tells the same of both, and
leaves both alike. -/
def ActsAs (d d' : Daemon σ) : Prop :=
  ∀ depth (p : Program σ), ∃ e d₁ d₂ es,
    p.run (perform depth) d = (e, d₁) ∧ p.run (perform depth) d' = (e, d₂) ∧ d₁.Resembles d₂ ∧
      d₁.trace = d.trace ++ es ∧ d₂.trace = d'.trace ++ es

lemma Resembles.actsAs (h : d.Resembles d') : d.ActsAs d' := by
  intro depth p
  obtain ⟨hending, hsame, es, htold, htold'⟩ :=
    h.run (Program.isOblivious_run (isOblivious_perform depth) p)
  refine ⟨_, _, (p.run (perform depth) d').2, es, rfl, ?_, hsame, htold, htold'⟩
  exact Prod.ext hending.symm rfl

end Daemon

end Overseer
