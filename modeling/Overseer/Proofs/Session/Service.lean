import Overseer.Application
import Overseer.Proofs.Lifecycle.Runs

/-!
# A daemon in service

A daemon is in service once it listens to signals and has the hooks of the application, whose state
is as it is wanted. Every operation of the main loop then comes back, leaves the daemon in service,
and tells of nothing but requests, looks at the word and hooks that come to what they may come to.
-/

namespace Overseer

variable {σ α β : Type}

/-- The turn of the application's life that belongs to a slot. -/
def Application.turn : Slot → Site → Application.Turn
  | .start => start
  | .reload => reconfigure
  | .user1 => user1
  | .user2 => user2
  | .close => shutdown

lemma Application.hook_context (slot : Slot) : context.hook slot = .act (turn slot) := by
  cases slot <;> rfl

/-- Whether a running daemon may tell this, whose hooks are the application's and come to what is
`ok`. -/
def Event.IsRoutine (ok : Outcome → Prop) : Event Site → Prop
  | .stored (some (.handling _)) _ => ok .failed
  | .stored _ _ => False
  | .invoked t hook _ => hook = some (.act (Application.turn t.slot))
  | .returned _ o => ok o
  | _ => True

/-- Signals are listened to, and the hooks are those of the application. -/
structure Daemon.InService (I : Site → Prop) (d : Daemon Site) : Prop where
  slots : ∀ slot, d.slots slot = some (.act (Application.turn slot))
  attached : d.attached = true
  installed : d.installed = true
  site : I d.app

/-- Each of these signals has been told as a request. -/
def Event.Answer (es : List (Event Site)) (now : List Arrival) : Prop :=
  ∀ sig, .signal sig ∈ now → ∃ b, .requested sig.requestedState b ∈ es

/-- Something has come in meanwhile, and the signals among it were heard. -/
def Daemon.Hears (d d' : Daemon Site) : Prop :=
  ∃ k es, d'.arrivals = d.arrivals.drop k ∧ d'.trace = d.trace ++ es ∧
    ∀ now ∈ d.arrivals.take k, Event.Answer es now

/-- The daemon goes on in service and has told nothing but events that satisfy `E`. -/
structure Daemon.Serves (I : Site → Prop) (E : Event Site → Prop) (d d' : Daemon Site) : Prop where
  inService : d'.InService I
  told : ∃ es, d'.trace = d.trace ++ es ∧ ∀ e ∈ es, E e
  hears : d.Hears d'

/-- The run comes back with what satisfies `post`, wherever in service it is begun. -/
def Act.Serves (I : Site → Prop) (E : Event Site → Prop) (x : Act Site α) (post : α → Prop) :
    Prop :=
  ∀ d, d.InService I → ∃ a d', x d = (.returned a, d') ∧ post a ∧ d.Serves I E d'

/-- What the hooks keep, and what they may come to. -/
structure Application.Upholds (I : Site → Prop) (ok : Outcome → Prop) : Prop where
  outcome : ∀ slot a, I a → ok (turn slot a).1
  site : ∀ slot a, I a → I (turn slot a).2.1

section

variable {I : Site → Prop} {E : Event Site → Prop} {ok : Outcome → Prop} {d d' d'' : Daemon Site}

lemma Event.Answer.mono {es es' : List (Event Site)} {now : List Arrival}
    (h : Event.Answer es now) (hes : ∀ e ∈ es, e ∈ es') : Event.Answer es' now := by
  intro sig hsig
  obtain ⟨b, hb⟩ := h sig hsig
  exact ⟨b, hes _ hb⟩

namespace Daemon

/-- Nothing has come in. -/
lemma Hears.of_arrivals {es : List (Event Site)} (harrivals : d'.arrivals = d.arrivals)
    (htrace : d'.trace = d.trace ++ es) : d.Hears d' :=
  ⟨0, es, by rw [harrivals, List.drop_zero], htrace, by simp⟩

lemma Hears.trans (h : d.Hears d') (h' : d'.Hears d'') : d.Hears d'' := by
  obtain ⟨k, es, harrivals, htrace, hes⟩ := h
  obtain ⟨k', es', harrivals', htrace', hes'⟩ := h'
  rw [harrivals] at harrivals' hes'
  refine ⟨k + k', es ++ es', by rw [harrivals', List.drop_drop], ?_, fun now hnow => ?_⟩
  · rw [htrace', htrace, List.append_assoc]
  · rw [List.take_add, List.mem_append] at hnow
    rcases hnow with hnow | hnow
    · exact (hes now hnow).mono fun _ => List.mem_append_left es'
    · exact (hes' now hnow).mono fun _ => List.mem_append_right es

lemma Serves.refl (h : d.InService I) : d.Serves I E d :=
  ⟨h, ⟨[], (List.append_nil _).symm, by simp⟩, .of_arrivals rfl (List.append_nil _).symm⟩

lemma Serves.trans (h : d.Serves I E d') (h' : d'.Serves I E d'') : d.Serves I E d'' := by
  obtain ⟨-, ⟨es, htrace, hes⟩, hhears⟩ := h
  obtain ⟨hservice, ⟨es', htrace', hes'⟩, hhears'⟩ := h'
  refine ⟨hservice, ⟨es ++ es', ?_, List.forall_mem_append.mpr ⟨hes, hes'⟩⟩, hhears.trans hhears'⟩
  rw [htrace', htrace, List.append_assoc]

/-- A change of the word alone, with the event that tells of it. -/
lemma serves_write (h : d.InService I) (w : State) {e : Event Site} (he : E e) :
    d.Serves I E ({ d with word := w }.note e) :=
  ⟨⟨h.slots, h.attached, h.installed, h.site⟩, ⟨[e], rfl, List.forall_mem_singleton.mpr he⟩,
    .of_arrivals rfl rfl⟩

lemma serves_note (h : d.InService I) {e : Event Site} (he : E e) : d.Serves I E (d.note e) :=
  serves_write h d.word he

lemma ask_told (d : Daemon Site) (s : State) :
    ∃ b, (d.ask s).trace = d.trace ++ [.requested s b] := by
  unfold ask
  split
  · exact ⟨false, rfl⟩
  · exact ⟨true, rfl⟩

lemma arrivals_ask (d : Daemon Site) (s : State) : (d.ask s).arrivals = d.arrivals := by
  unfold ask
  split <;> rfl

/-- A signal is told as a request, if it is heard. -/
lemma hear_told (d : Daemon Site) (sig : OsSignal) : ∃ es, (d.hear sig).trace = d.trace ++ es ∧
    (∀ e ∈ es, ∃ b, e = .requested sig.requestedState b) ∧
    (d.attached = true → d.installed = true → es ≠ []) := by
  unfold hear
  split
  · obtain ⟨b, htrace⟩ := d.ask_told sig.requestedState
    exact ⟨_, htrace, by simp, by simp⟩
  · rename_i hdeaf
    refine ⟨[], (List.append_nil _).symm, by simp, fun hattached hinstalled => ?_⟩
    rw [hattached, hinstalled] at hdeaf
    exact absurd rfl hdeaf

lemma arrivals_receive (d : Daemon Site) (a : Arrival) :
    (d.receive a).arrivals = d.arrivals := by
  cases a with
  | request s => exact d.arrivals_ask s
  | signal s =>
    rw [receive, hear]
    split
    · exact d.arrivals_ask _
    · rfl

/-- A signal that comes in is told as a request. -/
lemma receive_told (h : d.InService I) (a : Arrival) :
    ∃ es, (d.receive a).trace = d.trace ++ es ∧
      ∀ sig, a = .signal sig → ∃ b, .requested sig.requestedState b ∈ es := by
  cases a with
  | request s =>
    obtain ⟨b, htrace⟩ := d.ask_told s
    exact ⟨_, htrace, nofun⟩
  | signal s =>
    obtain ⟨es, htrace, hes, hne⟩ := d.hear_told s
    refine ⟨es, htrace, fun sig hsig => ?_⟩
    cases hsig
    obtain ⟨e, es, rfl⟩ := List.exists_cons_of_ne_nil (hne h.attached h.installed)
    obtain ⟨b, rfl⟩ := hes e (List.mem_cons_self ..)
    exact ⟨b, List.mem_cons_self ..⟩

variable (hE : ∀ e : Event Site, e.IsRoutine ok → E e)
include hE

lemma serves_ask (h : d.InService I) (s : State) : d.Serves I E (d.ask s) := by
  unfold ask
  split
  · exact serves_note h (hE _ trivial)
  · exact serves_write h s (hE _ trivial)

lemma serves_receive (h : d.InService I) (a : Arrival) : d.Serves I E (d.receive a) := by
  cases a with
  | request s => exact serves_ask hE h s
  | signal s =>
    simp only [receive, hear]
    split
    · exact serves_ask hE h _
    · exact .refl h

/-- All that comes in at once. -/
lemma serves_foldl_receive (h : d.InService I) (as : List Arrival) :
    d.Serves I E (as.foldl receive d) ∧ (as.foldl receive d).arrivals = d.arrivals ∧
      ∀ es, (as.foldl receive d).trace = d.trace ++ es → Event.Answer es as := by
  induction as generalizing d with
  | nil => exact ⟨.refl h, rfl, fun es _ => nofun⟩
  | cons a as ih =>
    have hreceived := serves_receive hE h a
    obtain ⟨hserves, harrivals, hanswer⟩ := ih hreceived.inService
    obtain ⟨es₁, htrace₁, htold⟩ := receive_told h a
    obtain ⟨es₂, htrace₂, -⟩ := hserves.told
    refine ⟨hreceived.trans hserves, harrivals.trans (arrivals_receive d a), fun es htrace => ?_⟩
    have hes : es = es₁ ++ es₂ := by
      rw [List.foldl_cons, htrace₂, htrace₁, List.append_assoc] at htrace
      exact (List.append_cancel_left htrace).symm
    intro sig hsig
    rw [hes]
    rcases List.mem_cons.mp hsig with hnow | hlater
    · obtain ⟨b, hb⟩ := htold sig hnow.symm
      exact ⟨b, List.mem_append_left _ hb⟩
    · obtain ⟨b, hb⟩ := hanswer es₂ htrace₂ sig hlater
      exact ⟨b, List.mem_append_right _ hb⟩

lemma serves_arrive (h : d.InService I) : d.Serves I E d.arrive := by
  unfold arrive
  split
  · exact .refl h
  · rename_i now later heq
    have hlater : ({ d with arrivals := later } : Daemon Site).InService I :=
      ⟨h.slots, h.attached, h.installed, h.site⟩
    obtain ⟨⟨hservice, ⟨es, htrace, hes⟩, -⟩, harrivals, hanswer⟩ :=
      serves_foldl_receive hE hlater now
    refine ⟨hservice, ⟨es, htrace, hes⟩, 1, es, ?_, htrace, fun now' hnow => ?_⟩
    · rw [harrivals, heq]
      rfl
    · rw [heq, List.take_succ_cons, List.take_zero, List.mem_singleton] at hnow
      rw [hnow]
      exact hanswer es htrace

end Daemon

/-! ### Accesses and turns -/

namespace Act

open Daemon

variable {post : α → Prop} {post' : β → Prop}

lemma serves_done {a : α} (ha : post a) : (done a : Act Site α).Serves I E post :=
  fun d h => ⟨a, d, rfl, ha, .refl h⟩

lemma Serves.andThen {x : Act Site α} {f : α → Act Site β} (hx : x.Serves I E post)
    (hf : ∀ a, post a → (f a).Serves I E post') : (x.andThen f).Serves I E post' := by
  intro d h
  obtain ⟨a, d', hrun, ha, hserves⟩ := hx d h
  obtain ⟨b, d'', hrun', hb, hserves'⟩ := hf a ha d' hserves.inService
  exact ⟨b, d'', by rw [andThen_returned hrun, hrun'], hb, hserves.trans hserves'⟩

lemma serves_note {e : Event Site} (he : E e) : (note e).Serves I E fun _ => True :=
  fun _ h => ⟨(), _, rfl, trivial, Daemon.serves_note h he⟩

variable (hE : ∀ e : Event Site, e.IsRoutine ok → E e)
include hE

lemma serves_log (level : Level) (source : Source) (message : String) :
    (log level source message).Serves I E fun _ => True :=
  serves_note (hE _ trivial)

lemma serves_load : (load : Act Site State).Serves I E fun _ => True := by
  intro d h
  have harrive := serves_arrive hE h
  exact ⟨_, _, rfl, trivial, harrive.trans (Daemon.serves_note harrive.inService (hE _ trivial))⟩

lemma serves_store {writer : Option Transition} {s : State} (he : E (.stored writer s)) :
    (store writer s).Serves I E fun _ => True := by
  intro d h
  have harrive := serves_arrive hE h
  exact ⟨(), _, rfl, trivial, harrive.trans (serves_write harrive.inService s he)⟩

lemma serves_request (s : State) : (request s : Act Site Bool).Serves I E fun _ => True := by
  intro d h
  have harrive := serves_arrive hE h
  exact ⟨_, _, rfl, trivial, harrive.trans (serves_ask hE harrive.inService s)⟩

lemma serves_take (r : State) : (take r : Act Site Bool).Serves I E fun _ => True := by
  intro d h
  have harrive := serves_arrive hE h
  simp only [take]
  split
  · exact ⟨_, _, rfl, trivial, harrive.trans (serves_write harrive.inService .running
      (hE _ trivial))⟩
  · exact ⟨_, _, rfl, trivial, harrive.trans (Daemon.serves_note harrive.inService (hE _ trivial))⟩

end Act

/-- A turn of the application's life, as a hook runs it. -/
lemma Program.run_act (perform : Op Site → Act Site Answer) (f : Site → Application.Turn)
    (d : Daemon Site) : (Program.act f).run perform d = (.returned (f d.app).1,
      { d with app := (f d.app).2.1, trace := d.trace ++ (f d.app).2.2.map .logged }) := rfl

namespace Daemon

open Act

variable {run : Program Site → Act Site Outcome}

/-- How hooks of the application are run. -/
def RunsTurns (run : Program Site → Act Site Outcome) : Prop :=
  ∃ perform, run = Program.run perform

variable (hE : ∀ e : Event Site, e.IsRoutine ok → E e)
include hE

lemma serves_turn (hup : Application.Upholds I ok) (hrun : RunsTurns run) (slot : Slot) :
    (run (.act (Application.turn slot))).Serves I E ok := by
  obtain ⟨perform, rfl⟩ := hrun
  intro d h
  refine ⟨_, _, Program.run_act perform _ d, hup.outcome slot d.app h.site, ?_, ?_, ?_⟩
  · exact ⟨h.slots, h.attached, h.installed, hup.site slot d.app h.site⟩
  · refine ⟨_, rfl, fun e he => ?_⟩
    obtain ⟨r, -, rfl⟩ := List.mem_map.mp he
    exact hE _ trivial
  · exact .of_arrivals rfl rfl

lemma serves_invoke (hup : Application.Upholds I ok) (hrun : RunsTurns run) (t : Transition) :
    (invoke run t).Serves I E ok := by
  intro d h
  rw [invoke_eq, h.slots]
  have hnoted : d.Serves I E (d.note (.invoked t (some (.act (Application.turn t.slot))) d.word)) :=
    Daemon.serves_note h (hE _ rfl)
  have hcalled : ((call run (some (.act (Application.turn t.slot)))).andThen fun o =>
      (Act.note (.returned t o)).andThen fun _ => done o).Serves I E ok := by
    refine (serves_turn hE hup hrun t.slot).andThen fun o ho => ?_
    exact (Act.serves_note (hE (.returned t o) ho)).andThen fun _ _ => serves_done ho
  obtain ⟨o, d', hcall, ho, hserves⟩ := hcalled _ hnoted.inService
  exact ⟨o, d', hcall, ho, hnoted.trans hserves⟩

lemma serves_settleRequest (r : State) {o : Outcome} (ho : ok o) :
    (settleRequest r o : Act Site Unit).Serves I E fun _ => True := by
  cases o with
  | failed =>
    have hstop : E (.stored (some (.handling r)) .stop) :=
      hE (.stored (some (.handling r)) .stop) ho
    exact (serves_store hE hstop).andThen fun _ _ => serves_log hE _ _ _
  | unset | passed => exact serves_log hE _ _ _

lemma serves_dispatch (hup : Application.Upholds I ok) (hrun : RunsTurns run) (r : State) :
    (dispatch run r).Serves I E fun _ => True := by
  rw [dispatch_eq]
  refine (serves_take hE r).andThen fun b _ => ?_
  split
  · exact (serves_invoke hE hup hrun _).andThen fun o ho => serves_settleRequest hE r ho
  · exact serves_done trivial

/-- A poll comes back, whatever it finds. -/
lemma serves_poll (hup : Application.Upholds I ok) (hrun : RunsTurns run) :
    (poll run).Serves I E fun _ => True := by
  unfold poll
  simp only [bind_eq, pure_eq]
  refine (serves_load hE).andThen fun current _ => ?_
  have hresolve : ((Act.load : Act Site State).andThen fun resolved =>
      done resolved.isAlive).Serves I E fun _ => True :=
    (serves_load hE).andThen fun _ _ => serves_done trivial
  split
  · exact (serves_dispatch hE hup hrun current).andThen fun _ _ => hresolve
  · exact hresolve

/-- A start comes back, too. What it tells, apart from the start itself, is routine. -/
lemma startAll_eq (hup : Application.Upholds I ok) (hrun : RunsTurns run) (h : d.InService I) :
    ∃ o d' es es', startAll run d = (.returned o, d') ∧ d'.InService I ∧
      d'.trace = d.trace ++ (es ++ .stored (some .starting) .running :: es') ∧
      (∀ e ∈ es, E e) ∧ ∀ e ∈ es', E e := by
  have hrest : ((invoke run .starting).andThen fun o =>
      (Act.log .info .lifecycle ("Daemon started (start hook: " ++ o.name ++ ")")).andThen
        fun _ => done o).Serves I E fun _ => True := by
    refine (serves_invoke hE hup hrun .starting).andThen fun o _ => ?_
    exact (serves_log hE _ _ _).andThen fun _ _ => serves_done trivial
  obtain ⟨harrived, ⟨es, harrive, hes⟩, -⟩ := serves_arrive hE h
  have hstored : ({ d.arrive with word := .running }.note
      (.stored (some .starting) .running) : Daemon Site).InService I :=
    ⟨harrived.slots, harrived.attached, harrived.installed, harrived.site⟩
  obtain ⟨o, d', hcall, -, hservice, ⟨es', htrace, hes'⟩, -⟩ := hrest _ hstored
  refine ⟨o, d', es, es', hcall, hservice, ?_, hes, hes'⟩
  rw [htrace, note, harrive, List.append_assoc, List.append_assoc, List.singleton_append]

lemma serves_closeAll (hup : Application.Upholds I ok) (hrun : RunsTurns run)
    (hclose : E (.stored (some .closing) .stop)) : (closeAll run).Serves I E ok := by
  unfold closeAll
  simp only [bind_eq, pure_eq]
  refine (serves_store hE hclose).andThen fun _ _ => ?_
  refine (serves_invoke hE hup hrun .closing).andThen fun o ho => ?_
  exact (serves_log hE _ _ _).andThen fun _ _ => serves_done ho

end Daemon

end

end Overseer
