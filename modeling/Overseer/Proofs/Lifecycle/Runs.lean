import Overseer.Proofs.Lifecycle.Trace

/-!
# Runs tell what they do

Each operation of a daemon adds a path to the trace, from what was known when it began to what is
known when it ends, and so does every program over these operations.
-/

namespace Overseer

open View

variable {σ α β : Type}

/-- What is known of a daemon in a phase. -/
def Daemon.view (d : Daemon σ) (ph : Phase σ) : View σ := ⟨d.word, d.slots, ph⟩

/-- The trace of `d'` is that of `d`, followed by a path from one daemon to the other. -/
def Daemon.Leads (d : Daemon σ) (ph : Phase σ) (d' : Daemon σ) (ph' : Phase σ) : Prop :=
  ∃ es, d'.trace = d.trace ++ es ∧ Path (d.view ph) es (d'.view ph')

namespace Daemon

variable {d d' d'' : Daemon σ} {ph ph' ph'' : Phase σ}

lemma Leads.refl (d : Daemon σ) (ph : Phase σ) : d.Leads ph d ph :=
  ⟨[], by simp, .nil _⟩

lemma Leads.trans (h : d.Leads ph d' ph') (h' : d'.Leads ph' d'' ph'') : d.Leads ph d'' ph'' := by
  obtain ⟨es, htrace, hpath⟩ := h
  obtain ⟨es', htrace', hpath'⟩ := h'
  exact ⟨es ++ es', by rw [htrace', htrace, List.append_assoc], hpath.append hpath'⟩

lemma Leads.of_step {e : Event σ} (htrace : d'.trace = d.trace ++ [e])
    (h : Step (d.view ph) e (d'.view ph')) : d.Leads ph d' ph' :=
  ⟨[e], htrace, .single h⟩

/-- An event that is noted while the daemon stays as it is. -/
lemma leads_note {e : Event σ} (h : Step (d.view ph) e (d.view ph')) :
    d.Leads ph (d.note e) ph' :=
  .of_step rfl h

/-! ### What comes in from outside -/

lemma leads_ask (hph : ph.isOpen) (s : State) : d.Leads ph (d.ask s) ph := by
  by_cases hw : d.word = .stop
  · rw [ask, if_pos hw]
    apply leads_note
    rw [view, hw]
    exact .refused d.slots ph s hph
  · rw [ask, if_neg hw]
    exact .of_step rfl (.accepted d.word d.slots ph s hph hw)

lemma leads_hear (hph : ph.isOpen) (s : OsSignal) : d.Leads ph (d.hear s) ph := by
  unfold hear
  split
  · exact leads_ask hph _
  · exact .refl d ph

lemma leads_receive (hph : ph.isOpen) (a : Arrival) : d.Leads ph (d.receive a) ph := by
  cases a with
  | request s => exact leads_ask hph s
  | signal s => exact leads_hear hph s

lemma leads_foldl_receive (hph : ph.isOpen) (as : List Arrival) :
    d.Leads ph (as.foldl receive d) ph := by
  induction as generalizing d with
  | nil => exact .refl d ph
  | cons a as ih => exact (leads_receive hph a).trans ih

lemma leads_arrive (hph : ph.isOpen) : d.Leads ph d.arrive ph := by
  unfold arrive
  split
  · exact .refl d ph
  · exact leads_foldl_receive hph _

lemma word_ask_of_stop (hw : d.word = .stop) (s : State) : (d.ask s).word = .stop := by
  rw [ask, if_pos hw]
  exact hw

lemma word_receive_of_stop (hw : d.word = .stop) (a : Arrival) : (d.receive a).word = .stop := by
  cases a with
  | request s => exact word_ask_of_stop hw s
  | signal s =>
    simp only [receive, hear]
    split
    · exact word_ask_of_stop hw _
    · exact hw

lemma word_foldl_receive_of_stop (hw : d.word = .stop) (as : List Arrival) :
    (as.foldl receive d).word = .stop := by
  induction as generalizing d with
  | nil => exact hw
  | cons a as ih => exact ih (word_receive_of_stop hw a)

/-- Nothing that comes in moves a stopped daemon. -/
lemma word_arrive_of_stop (hw : d.word = .stop) : d.arrive.word = .stop := by
  unfold arrive
  split
  · exact hw
  · rename_i now later _
    have hlater : ({ d with arrivals := later } : Daemon σ).word = .stop := hw
    exact word_foldl_receive_of_stop hlater now

end Daemon

/-! ### Accesses to the word -/

namespace Act

open Daemon

variable {d : Daemon σ} {ph : Phase σ}

lemma leads_load (hph : ph = .free ∨ ∃ op a, ph = .hushed op a) : d.Leads ph (load d).2 ph := by
  have hopen : ph.isOpen := by
    obtain rfl | ⟨op, a, rfl⟩ := hph <;> rfl
  exact (leads_arrive hopen).trans (leads_note (.loaded _ _ _ hph))

lemma leads_store {t : Option Transition} {s : State} {ph' : Phase σ} (hph : ph.isOpen)
    (h : ∀ w f, Step ⟨w, f, ph⟩ (.stored t s) ⟨s, f, ph'⟩) :
    d.Leads ph (store t s d).2 ph' :=
  (leads_arrive hph).trans (.of_step rfl (h d.arrive.word d.arrive.slots))

lemma request_fst (d : Daemon σ) (s : State) :
    (request s d).1 = .returned (d.arrive.word != .stop) := rfl

lemma leads_request (hph : ph.isOpen) (s : State) : d.Leads ph (request s d).2 ph :=
  (leads_arrive hph).trans (leads_ask hph s)

/-- Where the request was still there, its hook is due. -/
lemma leads_take {r : State} (hr : r.isTransient) :
    ((take r d).1 = .returned true ∧ d.Leads .free (take r d).2 (.due r) ∧
        (take r d).2.word = .running) ∨
      ((take r d).1 = .returned false ∧ d.Leads .free (take r d).2 .free) := by
  by_cases hw : d.arrive.word = r
  · left
    have htake : take r d =
        (.returned true, { d.arrive with word := .running }.note (.taken r)) := by
      simp only [take, hw, if_true]
    rw [htake]
    refine ⟨rfl, (leads_arrive rfl).trans (.of_step rfl ?_), rfl⟩
    rw [view, hw]
    exact .taken d.arrive.slots r hr
  · right
    have htake : take r d = (.returned false, d.arrive.note (.superseded r)) := by
      simp only [take, if_neg hw]
    rw [htake]
    exact ⟨rfl, (leads_arrive rfl).trans (leads_note (.superseded _ _ r hw))⟩

/-! ### Runs -/

/-- The run adds a path to the trace, whatever it is begun with and however it ends. -/
def Tells (x : Act σ α) : Prop := ∀ d : Daemon σ, d.Leads .free (x d).2 .free

@[simp] lemma pure_eq (a : α) : (pure a : Act σ α) = done a := rfl

@[simp] lemma bind_eq (x : Act σ α) (f : α → Act σ β) : x >>= f = x.andThen f := rfl

lemma andThen_returned {x : Act σ α} {f : α → Act σ β} {d d' : Daemon σ} {a : α}
    (h : x d = (.returned a, d')) : x.andThen f d = f a d' := by
  rw [andThen, h]

lemma andThen_panicked {x : Act σ α} {f : α → Act σ β} {d d' : Daemon σ} {m : String}
    (h : x d = (.panicked m, d')) : x.andThen f d = (.panicked m, d') := by
  rw [andThen, h]

lemma andThen_unfinished {x : Act σ α} {f : α → Act σ β} {d d' : Daemon σ}
    (h : x d = (.unfinished, d')) : x.andThen f d = (.unfinished, d') := by
  rw [andThen, h]

lemma andThen_assoc {γ : Type} (x : Act σ α) (f : α → Act σ β) (g : β → Act σ γ) :
    (x.andThen f).andThen g = x.andThen fun a => (f a).andThen g := by
  funext d
  rcases hx : x d with ⟨a | m | _, d'⟩
  · rw [andThen_returned hx]
    simp only [Act.andThen, hx]
  · rw [andThen_panicked hx, andThen_panicked (andThen_panicked hx)]
  · rw [andThen_unfinished hx, andThen_unfinished (andThen_unfinished hx)]

/-- What returned at last went through both runs. -/
lemma returned_of_andThen {x : Act σ α} {f : α → Act σ β} {d d'' : Daemon σ} {b : β}
    (h : x.andThen f d = (.returned b, d'')) :
    ∃ a d', x d = (.returned a, d') ∧ f a d' = (.returned b, d'') := by
  rcases hx : x d with ⟨a | m | _, d'⟩
  · rw [andThen_returned hx] at h
    exact ⟨a, d', rfl, h⟩
  · rw [andThen_panicked hx] at h
    cases h
  · rw [andThen_unfinished hx] at h
    cases h

lemma tells_done (a : α) : (done a : Act σ α).Tells := fun d => .refl d .free

lemma tells_panic (m : String) : (panic m : Act σ α).Tells := fun d => .refl d .free

lemma tells_giveUp : (giveUp : Act σ α).Tells := fun d => .refl d .free

lemma tells_get : (get : Act σ (Daemon σ)).Tells := fun d => .refl d .free

lemma Tells.andThen {x : Act σ α} {f : α → Act σ β} (hx : x.Tells) (hf : ∀ a, (f a).Tells) :
    (x.andThen f).Tells := by
  intro d
  have hd := hx d
  unfold Act.andThen
  split <;> rename_i heq <;> rw [heq] at hd
  · exact hd.trans (hf _ _)
  · exact hd
  · exact hd

lemma Tells.attempt {x : Act σ Answer} (hx : x.Tells) : x.attempt.Tells := by
  intro d
  have hd := hx d
  unfold Act.attempt
  split
  · rename_i heq
    rwa [heq] at hd
  · exact hd

lemma tells_modify {f : Daemon σ → Daemon σ} (hf : ∀ d : Daemon σ, d.Leads .free (f d) .free) :
    (modify f).Tells := hf

lemma tells_note {e : Event σ} (he : ∀ w f, Step ⟨w, f, .free⟩ e ⟨w, f, .free⟩) :
    (note e).Tells := fun _ => leads_note (he _ _)

lemma tells_log (level : Level) (source : Source) (message : String) :
    (log level source message : Act σ Unit).Tells :=
  tells_note fun w f => .logged w f _

lemma tells_load : (load : Act σ State).Tells := fun _ => leads_load (.inl rfl)

lemma tells_store {t : Option Transition} {s : State}
    (h : ∀ w f, Step (σ := σ) ⟨w, f, .free⟩ (.stored t s) ⟨s, f, .free⟩) :
    (store t s : Act σ Unit).Tells := fun _ => leads_store rfl h

lemma tells_request (s : State) : (request s : Act σ Bool).Tells := fun _ => leads_request rfl s

end Act

/-- What is said leads on. -/
lemma Daemon.leads_logged (d : Daemon σ) (rs : Records) :
    d.Leads .free { d with trace := d.trace ++ rs.map .logged } .free := by
  induction rs generalizing d with
  | nil =>
    rw [List.map_nil, List.append_nil]
    exact .refl d .free
  | cons r rs ih =>
    have hrest := ih (d.note (.logged r))
    rw [note, List.append_assoc] at hrest
    exact (leads_note (.logged d.word d.slots r)).trans hrest

/-- A program tells what its operations tell. -/
lemma Program.tells_run {perform : Op σ → Act σ Answer} (h : ∀ op, (perform op).Tells) :
    ∀ p : Program σ, (p.run perform).Tells
  | .done o => Act.tells_done o
  | .panic m => Act.tells_panic m
  | .perform op next => by
    rw [Program.run]
    exact (h op).attempt.andThen fun a => Program.tells_run h (next a)
  | .touch change next => fun d =>
    (d.leads_logged (change d.app).2).trans (Program.tells_run h (next d.app) _)

namespace Daemon

open Act

variable {d : Daemon σ} {run : Program σ → Act σ Outcome}

/-! ### Transitions -/

/-- Runs what was found in a slot. -/
def call (run : Program σ → Act σ Outcome) : Option (Program σ) → Act σ Outcome
  | none => done .unset
  | some p => run p

lemma tells_call (hrun : ∀ p, (run p).Tells) (hook : Option (Program σ)) :
    (call run hook).Tells := by
  cases hook with
  | none => exact tells_done _
  | some p => exact hrun p

lemma invoke_eq (run : Program σ → Act σ Outcome) (t : Transition) (d : Daemon σ) :
    invoke run t d =
      ((call run (d.slots t.slot)).andThen fun o =>
          (Act.note (.returned t o)).andThen fun _ => done o)
        (d.note (.invoked t (d.slots t.slot) d.word)) := by
  cases h : d.slots t.slot <;>
    simp only [invoke, bind_eq, pure_eq, andThen, Act.get, Act.note, Act.modify, call, h]

/-- What goes on after a transition's hook goes on after the hook itself. -/
lemma invoke_andThen (t : Transition) (f : Outcome → Act σ β) (d : Daemon σ) :
    (invoke run t).andThen f d =
      (call run (d.slots t.slot)).andThen
        (fun o => (Act.note (.returned t o)).andThen fun _ => f o)
        (d.note (.invoked t (d.slots t.slot) d.word)) := by
  calc (invoke run t).andThen f d
      = (((call run (d.slots t.slot)).andThen fun o =>
          (Act.note (.returned t o)).andThen fun _ => done o).andThen f)
          (d.note (.invoked t (d.slots t.slot) d.word)) := by
        rw [Act.andThen, invoke_eq, ← Act.andThen]
    _ = _ := by
        rw [andThen_assoc]
        rfl

lemma tells_invoke (hrun : ∀ p, (run p).Tells) {t : Transition} (ht : ∀ r, t ≠ .handling r) :
    (invoke run t).Tells := by
  intro d
  rw [invoke_eq]
  refine (leads_note (.invoked d.word d.slots t ht)).trans ?_
  refine Tells.andThen (tells_call hrun _) (fun o => ?_) _
  refine Tells.andThen (tells_note fun w f => .returned w f t o ?_) fun _ => tells_done o
  intro r hr
  exact absurd hr (ht r)

/-- What is under way once the hook of a request has come back. -/
def phaseAfter (r : State) : Ending Outcome → Phase σ
  | .returned .failed => .failed r
  | _ => .free

lemma leads_invoke_handling (hrun : ∀ p, (run p).Tells) (hw : d.word = .running) (r : State) :
    d.Leads (.due r) (invoke run (.handling r) d).2
      (phaseAfter r (invoke run (.handling r) d).1) := by
  rw [invoke_eq]
  set d' := d.note (.invoked (.handling r) (d.slots r.slot) d.word)
  have hlooked : d.Leads (.due r) d' .free := by
    apply leads_note
    simp only [view, hw]
    exact .handled d.slots r
  have hcalled := hlooked.trans (tells_call hrun (d.slots r.slot) d')
  rcases hcall : call run (d.slots r.slot) d' with ⟨o | m | _, c⟩
  · rw [hcall] at hcalled
    rw [Transition.slot, andThen_returned hcall]
    refine hcalled.trans ?_
    by_cases ho : o = .failed
    · subst ho
      exact leads_note (.gaveIn c.word c.slots r)
    · have hph : phaseAfter (σ := σ) r (.returned o) = .free := by
        cases o with
        | failed => exact absurd rfl ho
        | unset | passed => rfl
      show c.Leads .free (c.note (.returned (.handling r) o)) (phaseAfter r (.returned o))
      rw [hph]
      exact leads_note (.returned c.word c.slots (.handling r) o fun _ _ => ho)
  · rw [hcall] at hcalled
    rw [Transition.slot, andThen_panicked hcall]
    exact hcalled
  · rw [hcall] at hcalled
    rw [Transition.slot, andThen_unfinished hcall]
    exact hcalled

lemma tells_startAll (hrun : ∀ p, (run p).Tells) : (startAll run).Tells := by
  refine (tells_store fun w f => .started w f).andThen fun _ => ?_
  refine (tells_invoke hrun (fun r => by simp)).andThen fun o => ?_
  exact (tells_log _ _ _).andThen fun _ => tells_done o

lemma tells_closeAll (hrun : ∀ p, (run p).Tells) : (closeAll run).Tells := by
  refine (tells_store fun w f => .closed w f).andThen fun _ => ?_
  refine (tells_invoke hrun (fun r => by simp)).andThen fun o => ?_
  exact (tells_log _ _ _).andThen fun _ => tells_done o

/-- What a dispatch does with what its hook came to. -/
def settleRequest (r : State) (o : Outcome) : Act σ Unit :=
  if o.isFailed then
    (Act.store (some (.handling r)) .stop).andThen fun _ =>
      Act.log .warn .lifecycle (r.name ++ " hook failed, daemon stopping")
  else
    Act.log .info .lifecycle ("Handled " ++ r.name ++ " request (hook: " ++ o.name ++ ")")

lemma settleRequest_failed (r : State) :
    settleRequest r .failed = (Act.store (σ := σ) (some (.handling r)) .stop).andThen fun _ =>
      Act.log .warn .lifecycle (r.name ++ " hook failed, daemon stopping") := rfl

lemma leads_settleRequest (r : State) (o : Outcome) :
    d.Leads (phaseAfter r (.returned o)) (settleRequest r o d).2 .free := by
  cases o with
  | failed => exact (leads_store rfl fun w f => .stopped w f r).trans (tells_log _ _ _ _)
  | unset | passed => exact tells_log _ _ _ _

lemma dispatch_eq (run : Program σ → Act σ Outcome) (r : State) :
    dispatch run r = (Act.take r).andThen fun b =>
      if b then (invoke run (.handling r)).andThen (settleRequest r) else done () := by
  simp only [dispatch, bind_eq, pure_eq]
  congr 1

lemma tells_dispatch (hrun : ∀ p, (run p).Tells) {r : State} (hr : r.isTransient) :
    (dispatch run r).Tells := by
  intro d
  rw [dispatch_eq]
  rcases htake : Act.take r d with ⟨e, c⟩
  rcases leads_take (d := d) hr with ⟨hfst, hsnd, hw⟩ | ⟨hfst, hsnd⟩
  · rw [htake] at hfst hsnd hw
    subst hfst
    rw [andThen_returned htake, if_pos rfl]
    have hinvoked := leads_invoke_handling hrun hw r
    rcases hinvoke : invoke run (.handling r) c with ⟨o | m | _, c'⟩
    · rw [hinvoke] at hinvoked
      rw [andThen_returned hinvoke]
      exact hsnd.trans (hinvoked.trans (leads_settleRequest r o))
    · rw [hinvoke] at hinvoked
      rw [andThen_panicked hinvoke]
      exact hsnd.trans hinvoked
    · rw [hinvoke] at hinvoked
      rw [andThen_unfinished hinvoke]
      exact hsnd.trans hinvoked
  · rw [htake] at hfst hsnd
    subst hfst
    rw [andThen_returned htake]
    exact hsnd

lemma tells_poll (hrun : ∀ p, (run p).Tells) : (poll run).Tells := by
  refine tells_load.andThen fun current => ?_
  split
  · rename_i hcurrent
    exact (tells_dispatch hrun hcurrent).andThen fun _ =>
      tells_load.andThen fun _ => tells_done _
  · exact tells_load.andThen fun _ => tells_done _

lemma tells_install : (install : Act σ Unit).Tells := by
  unfold install
  refine tells_get.andThen fun d => ?_
  split
  · exact tells_done ()
  · exact (tells_modify fun d => .refl d .free).andThen fun _ => tells_log _ _ _

lemma tells_send (signal : ControlSignal) (pid : Nat) :
    (send signal pid : Act σ (Except Failure Unit)).Tells := by
  unfold send
  split
  · exact tells_done _
  · rename_i k _
    refine (tells_note fun w f => .killed w f k).andThen fun _ => tells_get.andThen fun d => ?_
    split
    · split
      · exact (tells_modify fun d => leads_hear rfl _).andThen fun _ =>
          (tells_log _ _ _).andThen fun _ => tells_done _
      · exact (tells_log _ _ _).andThen fun _ => tells_done _
    · exact tells_done _

/-! ### Operations -/

lemma tells_execute (hrun : ∀ p, (run p).Tells) (op : Op σ) : (execute run op).Tells := by
  cases op with
  | state => exact tells_load.andThen fun _ => tells_done _
  | isRunning => exact tells_load.andThen fun _ => tells_done _
  | describe =>
    exact Tells.andThen (Tells.andThen tells_load fun _ => tells_done _) fun _ =>
      tells_get.andThen fun _ => tells_done _
  | request s => exact (tells_request s).andThen fun _ => tells_done _
  | requestReload =>
    exact Tells.andThen (Tells.andThen (tells_request _) fun _ => tells_done _) fun _ =>
      tells_done _
  | setState s =>
    exact (tells_log _ _ _).andThen fun _ =>
      (tells_store fun w f => .put w f s).andThen fun _ => tells_done _
  | startAll => exact (tells_startAll hrun).andThen fun _ => tells_done _
  | poll => exact (tells_poll hrun).andThen fun _ => tells_done _
  | closeAll => exact (tells_closeAll hrun).andThen fun _ => tells_done _
  | bind slot hook =>
    refine Tells.andThen (tells_modify fun d => ?_) fun _ => tells_done _
    exact .of_step rfl (.bound d.word d.slots slot hook)
  | bindAll hooks =>
    refine Tells.andThen (tells_modify fun d => ?_) fun _ =>
      (tells_log _ _ _).andThen fun _ => tells_done _
    exact .of_step rfl (.boundAll d.word d.slots hooks)
  | clearHooks =>
    refine Tells.andThen (tells_modify fun d => ?_) fun _ => tells_done _
    exact .of_step rfl (.cleared d.word d.slots)
  | raise signal =>
    exact (tells_modify fun d => (leads_arrive rfl).trans (leads_hear rfl signal)).andThen fun _ =>
      tells_done _
  | send signal pid => exact (tells_send signal pid).andThen fun _ => tells_done _
  | install => exact tells_install.andThen fun _ => tells_done _

/-! ### A stopped daemon -/

/-- Begun at a stopped daemon, the run returns `b` and does nothing that the word would show. -/
def Hushed (op : Op σ) (a : Answer) (x : Act σ α) (b : α) : Prop :=
  ∀ d : Daemon σ, d.word = .stop →
    ∃ d', x d = (.returned b, d') ∧ d'.word = .stop ∧ d.Leads (.hushed op a) d' (.hushed op a)

variable {op : Op σ} {a : Answer}

lemma hushed_done (b : α) : Hushed op a (done b) b := fun d hw => ⟨d, rfl, hw, .refl d _⟩

lemma Hushed.andThen {x : Act σ α} {f : α → Act σ β} {b : α} {c : β} (hx : Hushed op a x b)
    (hf : Hushed op a (f b) c) : Hushed op a (x.andThen f) c := by
  intro d hw
  obtain ⟨d', hrun, hw', hleads⟩ := hx d hw
  obtain ⟨d'', hrun', hw'', hleads'⟩ := hf d' hw'
  exact ⟨d'', by rw [andThen_returned hrun, hrun'], hw'', hleads.trans hleads'⟩

lemma hushed_load : Hushed op a (Act.load : Act σ State) .stop := by
  intro d hw
  have harrive := word_arrive_of_stop hw
  refine ⟨(Act.load d).2, ?_, harrive, leads_load (.inr ⟨op, a, rfl⟩)⟩
  rw [← harrive]
  rfl

lemma hushed_request (s : State) : Hushed op a (Act.request s) false := by
  intro d hw
  have harrive := word_arrive_of_stop hw
  refine ⟨(Act.request s d).2, ?_, word_ask_of_stop harrive s, leads_request rfl s⟩
  rw [Prod.ext_iff, request_fst, harrive]
  exact ⟨rfl, rfl⟩

lemma hushed_poll (run : Program σ → Act σ Outcome) : Hushed op a (poll run) false := by
  unfold poll
  simp only [bind_eq, pure_eq]
  apply Hushed.andThen hushed_load
  rw [if_neg (by decide)]
  exact Hushed.andThen hushed_load (hushed_done _)

/-- A stopped daemon does nothing about what it refuses. -/
lemma hushed_execute (run : Program σ → Act σ Outcome) {b : Answer} (hb : op.refusal? = some b) :
    Hushed op a (execute run op) b := by
  unfold execute
  cases op with
  | poll =>
    cases hb
    simp only [bind_eq, pure_eq]
    exact Hushed.andThen (hushed_poll run) (hushed_done _)
  | request s =>
    cases hb
    simp only [bind_eq, pure_eq]
    exact Hushed.andThen (hushed_request s) (hushed_done _)
  | requestReload =>
    cases hb
    have hasked :
        Hushed .requestReload a ((Act.request .reload : Act σ Bool).andThen fun _ => done ()) () :=
      Hushed.andThen (hushed_request .reload) (hushed_done ())
    exact Hushed.andThen hasked (hushed_done _)
  | _ => simp [Op.refusal?] at hb

/-! ### Operations inside of operations -/

/-- Whatever hooks do, and however deep they nest, the trace tells it. -/
lemma tells_perform (depth : Nat) (op : Op σ) : (perform depth op).Tells := by
  induction depth generalizing op with
  | zero => exact tells_giveUp
  | succ n ih =>
    intro d
    set run : Program σ → Act σ Outcome := Program.run (perform n)
    by_cases hop : d.word = .stop ∧ op.refusal?.isSome
    · obtain ⟨hw, hsome⟩ := hop
      obtain ⟨a, ha⟩ := Option.isSome_iff_exists.mp hsome
      have hbegan : d.Leads .free (d.note (.began op)) (.hushed op a) := by
        apply leads_note
        simp only [view, hw]
        exact .hushed d.slots op a ha
      obtain ⟨d', hexec, -, hleads⟩ := hushed_execute (a := a) run ha (d.note (.began op)) hw
      have hended : d'.Leads (.hushed op a) (d'.note (.ended op a)) .free :=
        leads_note (.answered d'.word d'.slots op a)
      have hperform : perform (n + 1) op d = (.returned a, d'.note (.ended op a)) := by
        show (execute run op).andThen _ (d.note (.began op)) = _
        rw [andThen_returned hexec]
        rfl
      rw [hperform]
      exact hbegan.trans (hleads.trans hended)
    · have hbegan : d.Leads .free (d.note (.began op)) .free := by
        refine leads_note (.began d.word d.slots op fun hw => ?_)
        rw [← Option.not_isSome_iff_eq_none]
        exact fun hsome => hop ⟨hw, hsome⟩
      refine hbegan.trans (Tells.andThen (tells_execute ?_ op) (fun a => ?_) _)
      · exact Program.tells_run ih
      · exact (tells_note fun w f => .ended w f op a).andThen fun _ => tells_done a

/-- A run adds a path to the trace, and the path leads to the word and the slots it leaves. -/
theorem exists_path (depth : Nat) (p : Program σ) (d : Daemon σ) :
    ∃ es, (p.run (perform depth) d).2.trace = d.trace ++ es ∧
      Path (d.view .free) es ((p.run (perform depth) d).2.view .free) :=
  Program.tells_run (tells_perform depth) p d

end Daemon

end Overseer
