import Overseer.Proofs.Lifecycle.Habits

/-!
# One notice for each transition

Each transition that is complete is announced by one record, and nothing else that a daemon does
is. `Story` reads a trace as the transitions that took place in it, with those inside of their
hooks: a transition is complete once its hook has come back, and its notice comes right after.
-/

namespace Overseer

open Act

variable {σ α : Type}

/-! ### Stories -/

/-- What the daemon says of a transition that is complete. Only a request whose hook failed is a
matter for a warning. -/
def Transition.notice : Transition → Outcome → Record
  | .starting, o => ⟨.info, .lifecycle, "Daemon started (start hook: " ++ o.name ++ ")"⟩
  | .closing, o => ⟨.info, .lifecycle, "Daemon closed (close hook: " ++ o.name ++ ")"⟩
  | .handling r, .failed => ⟨.warn, .lifecycle, r.name ++ " hook failed, daemon stopping"⟩
  | .handling r, o =>
    ⟨.info, .lifecycle, "Handled " ++ r.name ++ " request (hook: " ++ o.name ++ ")"⟩

/-- The daemon speaks, and not just for debugging. -/
def Record.isNotice (r : Record) : Bool :=
  r.source = .lifecycle && (r.level = .info || r.level = .warn)

def Event.notice? : Event σ → Option Record
  | .logged r => if r.isNotice then some r else none
  | _ => none

def Event.completed? : Event σ → Option (Transition × Outcome)
  | .returned t o => some (t, o)
  | _ => none

/-- The event neither belongs to a transition's hook nor is a notice. -/
def Event.isIncidental : Event σ → Bool
  | .invoked _ _ _ | .returned _ _ => false
  | .logged r => !r.isNotice
  | _ => true

/-- What may come between a hook that has come back and the notice: where the hook of a request
failed, the daemon is stopped, and more is asked of it before. -/
def Event.isBetween : Transition → Outcome → Event σ → Bool
  | .handling _, .failed, .requested _ _ => true
  | .handling r, .failed, .stored writer s => writer = some (.handling r) && s = .stop
  | _, _, _ => false

/-- The transition takes a daemon from one state to the next. -/
def Transition.IsProper (t : Transition) : Prop := ∀ r, t = .handling r → r.isTransient = true

/-- The transitions that are complete in what happened, in the order in which they came to an
end. -/
inductive Story : List (Event σ) → List (Transition × Outcome) → Prop where
  | nil : Story [] []
  | append {es es' cs cs'} (h : Story es cs) (h' : Story es' cs') : Story (es ++ es') (cs ++ cs')
  | incidental {e : Event σ} (he : e.isIncidental = true) : Story [e] []
  /-- The hook came back. -/
  | complete {n hook d d' es cs between} {t : Transition} (w : State) {o : Outcome}
      (ht : t.IsProper)
      (hran : Daemon.call (Program.run (Daemon.perform n)) hook d = (.returned o, d'))
      (htold : d'.trace = d.trace ++ es) (h : Story es cs)
      (hbetween : ∀ e ∈ between, e.isBetween t o = true) :
      Story (.invoked t hook w :: (es ++ .returned t o :: (between ++ [.logged (t.notice o)])))
        (cs ++ [(t, o)])
  /-- The hook panicked, or did not come to an end. -/
  | abandoned {n hook d d' es cs e} (t : Transition) (w : State)
      (hran : Daemon.call (Program.run (Daemon.perform n)) hook d = (e, d'))
      (hlost : ∀ o, e ≠ .returned o)
      (htold : d'.trace = d.trace ++ es) (h : Story es cs) :
      Story (.invoked t hook w :: es) cs

lemma Transition.isNotice_notice (t : Transition) (o : Outcome) : (t.notice o).isNotice = true := by
  cases t with
  | starting | closing => rfl
  | handling r => cases o <;> rfl

section

variable {e : Event σ} {es : List (Event σ)} {t : Transition} {o : Outcome}

lemma Event.completed?_of_isIncidental (he : e.isIncidental = true) : e.completed? = none := by
  cases e with
  | returned t o => cases he
  | _ => rfl

lemma Event.notice?_of_isIncidental (he : e.isIncidental = true) : e.notice? = none := by
  cases e with
  | logged r =>
    have hr : r.isNotice = false := Bool.not_eq_true' _ |>.mp he
    simp [notice?, hr]
  | _ => rfl

lemma Event.isIncidental_of_isAside (he : e.isAside = true) : e.isIncidental = true := by
  cases e with
  | logged r =>
    have hr : r.level = .debug ∨ r.source = .signals := by simpa [isAside] using he
    rcases hr with hr | hr <;> simp [isIncidental, Record.isNotice, hr]
  | loaded | superseded | killed | began | ended => rfl
  | _ => cases he

lemma Event.isIncidental_of_isBetween (he : e.isBetween t o = true) : e.isIncidental = true := by
  cases e with
  | requested | stored => rfl
  | _ => cases t <;> cases o <;> cases he

lemma filterMap_completed?_of_isIncidental (hes : ∀ e ∈ es, e.isIncidental = true) :
    es.filterMap Event.completed? = [] :=
  List.filterMap_eq_nil_iff.mpr fun e he => Event.completed?_of_isIncidental (hes e he)

lemma filterMap_notice?_of_isIncidental (hes : ∀ e ∈ es, e.isIncidental = true) :
    es.filterMap Event.notice? = [] :=
  List.filterMap_eq_nil_iff.mpr fun e he => Event.notice?_of_isIncidental (hes e he)

end

namespace Story

variable {es : List (Event σ)} {cs : List (Transition × Outcome)}

lemma of_isIncidental (hes : ∀ e ∈ es, e.isIncidental = true) : Story es [] := by
  induction es with
  | nil => exact .nil
  | cons e es ih =>
    rw [List.forall_mem_cons] at hes
    exact .append (.incidental hes.1) (ih hes.2)

lemma completed_eq (h : Story es cs) : es.filterMap Event.completed? = cs := by
  induction h with
  | nil => rfl
  | append _ _ ih ih' => rw [List.filterMap_append, ih, ih']
  | incidental he => rw [List.filterMap_cons_none (Event.completed?_of_isIncidental he)]; rfl
  | complete w ht hran htold _ hbetween ih =>
    have hquiet := filterMap_completed?_of_isIncidental fun e he =>
      Event.isIncidental_of_isBetween (hbetween e he)
    simp only [List.filterMap_cons, List.filterMap_append, List.filterMap_nil, Event.completed?,
      ih, hquiet, List.nil_append]
  | abandoned t w hran hlost htold _ ih =>
    rw [List.filterMap_cons_none rfl, ih]

lemma notices_eq (h : Story es cs) :
    es.filterMap Event.notice? = cs.map fun c => c.1.notice c.2 := by
  induction h with
  | nil => rfl
  | append _ _ ih ih' => rw [List.filterMap_append, ih, ih', List.map_append]
  | incidental he => rw [List.filterMap_cons_none (Event.notice?_of_isIncidental he)]; rfl
  | complete w ht hran htold _ hbetween ih =>
    have hquiet := filterMap_notice?_of_isIncidental fun e he =>
      Event.isIncidental_of_isBetween (hbetween e he)
    simp only [List.filterMap_cons, List.filterMap_append, List.filterMap_nil, Event.notice?,
      ih, hquiet, List.nil_append, Transition.isNotice_notice, if_true, List.map_append,
      List.map_cons, List.map_nil]
  | abandoned t w hran hlost htold _ ih =>
    rw [List.filterMap_cons_none rfl, ih]

end Story

/-! ### Runs tell stories -/

namespace Daemon

variable {d d' d'' : Daemon σ}

/-- No hook speaks in the daemon's name, and what becomes of the daemon is a story. -/
def Reports (d d' : Daemon σ) : Prop :=
  d.Binds (fun r => r.isNotice = false) → d'.Binds (fun r => r.isNotice = false) ∧
    ∃ es cs, d'.trace = d.trace ++ es ∧ Story es cs

namespace Reports

lemma of_isIncidental {es : List (Event σ)} (hslots : d'.slots = d.slots)
    (htrace : d'.trace = d.trace ++ es) (hes : ∀ e ∈ es, e.isIncidental = true) :
    d.Reports d' := by
  intro hd
  refine ⟨fun slot hook hslot => hd slot hook ?_, es, [], htrace, .of_isIncidental hes⟩
  rwa [hslots] at hslot

lemma refl (d : Daemon σ) : d.Reports d :=
  .of_isIncidental rfl (List.append_nil _).symm (by simp)

lemma trans (h : d.Reports d') (h' : d'.Reports d'') : d.Reports d'' := by
  intro hd
  obtain ⟨hd', es, cs, htrace, hstory⟩ := h hd
  obtain ⟨hd'', es', cs', htrace', hstory'⟩ := h' hd'
  exact ⟨hd'', es ++ es', cs ++ cs', by rw [htrace', htrace, List.append_assoc],
    hstory.append hstory'⟩

end Reports

/-- What comes in leaves the slots and tells of requests only. -/
lemma arrive_tells (d : Daemon σ) : d.arrive.slots = d.slots ∧
    ∃ es, d.arrive.trace = d.trace ++ es ∧ ∀ e ∈ es, ∃ s b, e = .requested s b := by
  refine keeps_arrive (R := fun d d' => d'.slots = d.slots ∧
    ∃ es, d'.trace = d.trace ++ es ∧ ∀ e ∈ es, ∃ s b, e = .requested s b) ?_ ?_ ?_ ?_ d
  · exact fun d => ⟨rfl, [], (List.append_nil _).symm, by simp⟩
  · rintro d d' d'' ⟨hslots, es, htrace, hes⟩ ⟨hslots', es', htrace', hes'⟩
    exact ⟨hslots'.trans hslots, es ++ es', by rw [htrace', htrace, List.append_assoc],
      List.forall_mem_append.mpr ⟨hes, hes'⟩⟩
  · intro d s
    unfold ask
    split <;> exact ⟨rfl, _, rfl, List.forall_mem_singleton.mpr ⟨s, _, rfl⟩⟩
  · exact fun d _ => ⟨rfl, [], (List.append_nil _).symm, by simp⟩

lemma reports_ask (d : Daemon σ) (s : State) : d.Reports (d.ask s) := by
  unfold ask
  split <;> exact .of_isIncidental rfl rfl (List.forall_mem_singleton.mpr rfl)

lemma reports_arrive (d : Daemon σ) : d.Reports d.arrive := by
  obtain ⟨hslots, es, htrace, hes⟩ := arrive_tells d
  refine .of_isIncidental hslots htrace fun e he => ?_
  obtain ⟨s, b, rfl⟩ := hes e he
  rfl

lemma reports_store (writer : Option Transition) (s : State) :
    (Act.store writer s : Act σ Unit).Keeps Reports :=
  fun d => (reports_arrive d).trans
    (.of_isIncidental rfl rfl (List.forall_mem_singleton.mpr rfl))

lemma reports_take (r : State) : (Act.take r : Act σ Bool).Keeps Reports := by
  intro d
  refine (reports_arrive d).trans ?_
  simp only [Act.take]
  split <;> exact .of_isIncidental rfl rfl (List.forall_mem_singleton.mpr rfl)

section

variable {n : Nat}
  (hrun : ∀ p : Program σ, p.Says (fun r => r.isNotice = false) →
    (p.run (perform n)).Keeps Reports)
include hrun

/-- A transition tells what its hook does and, if the hook comes back, gives notice of it. -/
lemma reports_transition {t : Transition} {finish : Outcome → Act σ α} (ht : t.IsProper)
    (hfinish : ∀ o d, ∃ between, (finish o d).2.slots = d.slots ∧
      (finish o d).2.trace = d.trace ++ (between ++ [.logged (t.notice o)]) ∧
      ∀ e ∈ between, e.isBetween t o = true) :
    ((invoke (Program.run (perform n)) t).andThen finish).Keeps Reports := by
  intro d hd
  set looked := d.note (.invoked t (d.slots t.slot) d.word) with hlooked
  have hcall : looked.Reports (call (Program.run (perform n)) (d.slots t.slot) looked).2 := by
    cases hhook : d.slots t.slot with
    | none => exact .refl looked
    | some p => exact hrun p (hd t.slot p hhook) looked
  rw [invoke_andThen, ← hlooked]
  rcases hran : call (Program.run (perform n)) (d.slots t.slot) looked with ⟨e, left⟩
  rw [hran] at hcall
  obtain ⟨hleft, es, cs, htold, hstory⟩ := hcall hd
  have habandoned (hlost : ∀ o, e ≠ .returned o) :
      left.Binds (fun r => r.isNotice = false) ∧
        ∃ es cs, left.trace = d.trace ++ es ∧ Story es cs :=
    ⟨hleft, _, cs, by rw [htold, hlooked, note, List.append_assoc, List.singleton_append],
      .abandoned t d.word hran hlost htold hstory⟩
  cases e with
  | returned o =>
    rw [andThen_returned hran]
    change (finish o (left.note (.returned t o))).2.Binds _ ∧ _
    obtain ⟨between, hslots, htrace, hbetween⟩ := hfinish o (left.note (.returned t o))
    refine ⟨fun slot hook hslot => hleft slot hook (by rwa [hslots] at hslot), _, _,
      htrace.trans ?_, .complete d.word ht hran htold hstory hbetween⟩
    rw [note, htold, hlooked, note]
    simp only [List.append_assoc, List.cons_append, List.nil_append]
  | panicked m =>
    rw [andThen_panicked hran]
    exact habandoned fun o ho => by cases ho
  | unfinished =>
    rw [andThen_unfinished hran]
    exact habandoned fun o ho => by cases ho

lemma reports_startAll : (startAll (Program.run (perform n)) : Act σ Outcome).Keeps Reports := by
  simp only [startAll, bind_eq, pure_eq]
  refine Keeps.andThen Reports.trans (reports_store _ _) fun _ => ?_
  exact reports_transition hrun (fun r hr => by cases hr) fun o d => ⟨[], rfl, rfl, by simp⟩

lemma reports_closeAll : (closeAll (Program.run (perform n)) : Act σ Outcome).Keeps Reports := by
  simp only [closeAll, bind_eq, pure_eq]
  refine Keeps.andThen Reports.trans (reports_store _ _) fun _ => ?_
  exact reports_transition hrun (fun r hr => by cases hr) fun o d => ⟨[], rfl, rfl, by simp⟩

lemma reports_dispatch {r : State} (hr : r.isTransient = true) :
    (dispatch (Program.run (perform n)) r : Act σ Unit).Keeps Reports := by
  rw [dispatch_eq]
  refine Keeps.andThen Reports.trans (reports_take r) fun b => ?_
  split
  · refine reports_transition hrun (t := .handling r) (fun r' hr' => by cases hr'; exact hr) ?_
    intro o d
    cases o with
    | unset | passed => exact ⟨[], rfl, rfl, by simp⟩
    | failed =>
      obtain ⟨hslots, asked, htrace, hasked⟩ := arrive_tells d
      have htold : (settleRequest r .failed d).2.trace = d.arrive.trace ++
          [.stored (some (.handling r)) .stop] ++
            [.logged (Transition.notice (.handling r) .failed)] := rfl
      refine ⟨asked ++ [.stored (some (.handling r)) .stop], hslots, ?_, ?_⟩
      · rw [htold, htrace, List.append_assoc, List.append_assoc, List.append_assoc]
      · refine List.forall_mem_append.mpr ⟨fun e he => ?_, List.forall_mem_singleton.mpr ?_⟩
        · obtain ⟨s, b, rfl⟩ := hasked e he
          rfl
        · simp [Event.isBetween]
  · exact Reports.refl

end

/-- Whatever hooks do, runs tell stories. -/
lemma habit_reports : Habit (fun r => r.isNotice = false) (Reports (σ := σ)) where
  refl := Reports.refl
  trans := Reports.trans
  arrive := reports_arrive
  ask := reports_ask
  aside d _ he := .of_isIncidental rfl rfl
    (List.forall_mem_singleton.mpr (Event.isIncidental_of_isAside he))
  put _ _ := .of_isIncidental rfl rfl (List.forall_mem_singleton.mpr rfl)
  bind d slot hook hprogram hd := by
    refine ⟨fun s p hp => ?_, [_], [], rfl, .incidental rfl⟩
    by_cases hs : s = slot
    · obtain rfl : hook = p := Option.some.inj ((if_pos hs).symm.trans hp)
      exact hprogram
    · exact hd s p ((if_neg hs).symm.trans hp)
  bindAll d hooks hprogram hd := by
    refine ⟨fun s p hp => ?_, [_], [], rfl, .incidental rfl⟩
    cases hp
    exact hprogram s
  clear d hd := ⟨nofun, [_], [], rfl, .incidental rfl⟩
  listen _ := .of_isIncidental rfl (List.append_nil _).symm (by simp)
  touch d app rs hrs := by
    refine .of_isIncidental rfl rfl fun e he => ?_
    obtain ⟨r, hr, rfl⟩ := List.mem_map.mp he
    simp [Event.isIncidental, hrs r hr]
  starting _ := reports_startAll
  handling _ _ hrun := reports_dispatch hrun
  closing _ := reports_closeAll

/-- The daemon gives no notice. -/
def Mutters (d d' : Daemon σ) : Prop :=
  ∃ es, d'.trace = d.trace ++ es ∧ ∀ e ∈ es, e.isIncidental = true

lemma mutters_of_note {e : Event σ} (htrace : d'.trace = d.trace ++ [e])
    (he : e.isIncidental = true) : d.Mutters d' :=
  ⟨[e], htrace, List.forall_mem_singleton.mpr he⟩

lemma manner_mutters : Manner (fun r => r.isNotice = false) (Mutters (σ := σ)) where
  refl _ := ⟨[], (List.append_nil _).symm, by simp⟩
  trans := by
    rintro d d' d'' ⟨es, htrace, hes⟩ ⟨es', htrace', hes'⟩
    exact ⟨es ++ es', by rw [htrace', htrace, List.append_assoc],
      List.forall_mem_append.mpr ⟨hes, hes'⟩⟩
  arrive d := by
    obtain ⟨-, es, htrace, hes⟩ := arrive_tells d
    refine ⟨es, htrace, fun e he => ?_⟩
    obtain ⟨s, b, rfl⟩ := hes e he
    rfl
  ask d s := by
    unfold ask
    split <;> exact mutters_of_note rfl rfl
  aside _ _ he := mutters_of_note rfl (Event.isIncidental_of_isAside he)
  put _ _ := mutters_of_note rfl rfl
  bind _ _ _ _ := mutters_of_note rfl rfl
  bindAll _ _ _ := mutters_of_note rfl rfl
  clear _ := mutters_of_note rfl rfl
  listen _ := ⟨[], (List.append_nil _).symm, by simp⟩
  touch _ _ rs hrs := by
    refine ⟨_, rfl, fun e he => ?_⟩
    obtain ⟨r, hr, rfl⟩ := List.mem_map.mp he
    simp [Event.isIncidental, hrs r hr]

end Daemon

end Overseer
