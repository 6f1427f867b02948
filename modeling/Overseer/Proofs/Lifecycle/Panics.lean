import Overseer.Proofs.Lifecycle.Guarded
import Overseer.Proofs.Lifecycle.Notices
import Overseer.Proofs.Lifecycle.Oblivious

/-!
# Hooks that panic

A panic leaves an operation through the hook of the transition that the operation makes, and nothing
is done about the transition any more. So the daemon is left as the hook left it, and this is how it
would be left had the hook reported success instead: all that the transition would still have done
is to tell of it.
-/

namespace Overseer

open Act

variable {σ α : Type}

/-! ### What is put in the word -/

/-- The event puts the state in the word, other than for taking a request. -/
def Event.Puts (s : State) (e : Event σ) : Prop :=
  e = .requested s true ∨ ∃ writer, e = .stored writer s

/-- What the word says, other than `running`, it has said from the first or was put in it. -/
lemma eq_or_puts_of_wordAfter {w s : State} {es : List (Event σ)} (h : wordAfter w es = s)
    (hs : s ≠ .running) : w = s ∨ ∃ e ∈ es, e.Puts s := by
  induction es generalizing w with
  | nil => exact .inl h
  | cons e es ih =>
    rcases ih h with he | ⟨e', hmem, hputs⟩
    · cases e with
      | stored writer s' => exact .inr ⟨_, List.mem_cons_self, .inr ⟨writer, by rw [← he]; rfl⟩⟩
      | requested s' accepted =>
        cases accepted with
        | true => exact .inr ⟨_, List.mem_cons_self, .inl (by rw [← he]; rfl)⟩
        | false => exact .inl he
      | taken r => exact absurd he.symm hs
      | _ => exact .inl he
    · exact .inr ⟨e', List.mem_cons_of_mem _ hmem, hputs⟩

/-- What is taken was put in the word, unless it was there from the first. -/
lemma View.Path.taken_puts {v v' : View σ} {before after : List (Event σ)} {r : State}
    (h : Path v (before ++ .taken r :: after) v') (hv : v.word.isTransient = false) :
    ∃ e ∈ before, e.Puts r := by
  obtain ⟨u, hbefore, hrest⟩ := h.split
  cases hrest with
  | cons hstep _ =>
    cases hstep with
    | taken f r hr =>
      have hr' : r ≠ .running := by
        rintro rfl
        cases hr
      rcases eq_or_puts_of_wordAfter hbefore.word_eq.symm hr' with hfirst | hputs
      · obtain rfl : v.word = r := hfirst
        rw [hr] at hv
        cases hv
      · exact hputs

/-! ### Success in place of a panic -/

/-- The program that reports success where this one panics. -/
def Program.calm : Program σ → Program σ
  | .done o => .done o
  | .panic _ => .done .passed
  | .perform op next => .perform op fun a => (next a).calm
  | .touch change next => .touch change fun a => (next a).calm

lemma Act.attempt_ne_panicked (x : Act σ Answer) (d : Daemon σ) (m : String) :
    (x.attempt d).1 ≠ .panicked m := by
  rcases hx : x d with ⟨a | m' | _, d'⟩ <;> simp [attempt, hx]

/-- Up to the panic both programs do the same. -/
lemma Program.run_calm {perform : Op σ → Act σ Answer} {m : String} (p : Program σ)
    {d left : Daemon σ} (h : p.run perform d = (.panicked m, left)) :
    p.calm.run perform d = (.returned .passed, left) := by
  cases p with
  | done o => cases h
  | panic m' =>
    cases h
    rfl
  | perform op next =>
    rw [Program.run] at h
    rw [calm, Program.run]
    have hcaught := attempt_ne_panicked (perform op) d
    rcases hop : (perform op).attempt d with ⟨a | m' | _, d'⟩
    · rw [andThen_returned hop] at h ⊢
      exact Program.run_calm (next a) h
    · rw [hop] at hcaught
      exact absurd rfl (hcaught m')
    · rw [andThen_unfinished hop] at h
      cases h
  | touch change next => exact Program.run_calm (next d.app) h

/-- Performs an operation whose own hook reports success where it would panic. The hooks inside of
that hook panic as ever. -/
def Daemon.performCalmly (n : Nat) (op : Op σ) : Act σ Answer := do
  Act.note (.began op)
  let answer ← execute (fun p => p.calm.run (perform n)) op
  Act.note (.ended op answer)
  return answer

/-! ### The transition of an operation -/

/-- The operation makes the transition. -/
def Transition.IsMadeBy : Transition → Op σ → Prop
  | .starting, .startAll | .closing, .closeAll => True
  | .handling r, .poll => r.isTransient = true
  | _, _ => False

/-- What the word says when the hook of the transition is started. -/
def Transition.word : Transition → State
  | .starting | .handling _ => .running
  | .closing => .stop

/-- A poll looks at the word once more before it comes back. -/
def Daemon.resolve : Act σ Answer :=
  load.andThen fun resolved => done (.bool resolved.isAlive)

lemma Daemon.resolve_eq (d : Daemon σ) : resolve d =
    (.returned (.bool d.arrive.word.isAlive), d.arrive.note (.loaded d.arrive.word)) := rfl

/-- What is left of an operation once the hook of its transition has come back. -/
def Transition.finish (t : Transition) (o : Outcome) : Act σ Answer :=
  match t with
  | .starting | .closing => (note (.logged (t.notice o))).andThen fun _ => done (.outcome o)
  | .handling r => (Daemon.settleRequest r o).andThen fun _ => Daemon.resolve

/-- What has become of the daemon when the operation comes back: the last look of a poll lets in
what has arrived. -/
def Op.lastLook (d : Daemon σ) : Op σ → Daemon σ
  | .poll => d.arrive
  | _ => d

namespace Daemon

variable {d looked left : Daemon σ} {op : Op σ} {t : Transition} {n : Nat} {m : String}
  {run : Program σ → Act σ Outcome}

/-- The slots stay as they are, and no notice is given. -/
def Prepares (d d' : Daemon σ) : Prop := d'.slots = d.slots ∧ d.Mutters d'

namespace Prepares

variable {d' d'' : Daemon σ}

lemma trans (h : d.Prepares d') (h' : d'.Prepares d'') : d.Prepares d'' :=
  ⟨h'.1.trans h.1, manner_mutters.trans h.2 h'.2⟩

/-- The word changes, and one event tells of it. -/
lemma write (d : Daemon σ) (w : State) {e : Event σ} (he : e.isIncidental = true) :
    d.Prepares ({ d with word := w }.note e) :=
  ⟨rfl, mutters_of_note rfl he⟩

lemma note (d : Daemon σ) {e : Event σ} (he : e.isIncidental = true) : d.Prepares (d.note e) :=
  write d d.word he

lemma arrive (d : Daemon σ) : d.Prepares d.arrive :=
  ⟨(arrive_tells d).1, manner_mutters.arrive d⟩

end Prepares

/-- The daemon as the hook of the transition finds it, once the hook was looked up. -/
def lookUp (d : Daemon σ) (t : Transition) : Daemon σ :=
  d.note (.invoked t (d.slots t.slot) d.word)

/-- The operation has come to where it looks the hook of its transition up. -/
structure Reaches (op : Op σ) (d : Daemon σ) (t : Transition) (begun : Daemon σ) : Prop where
  made : t.IsMadeBy op
  word : begun.word = t.word
  prepares : d.Prepares begun

/-- The daemon in the state that the transition sets. -/
def enter (d : Daemon σ) (t : Transition) : Daemon σ :=
  { d.arrive with word := t.word }.note (.stored (some t) t.word)

lemma reaches_enter (ht : t.IsMadeBy op) : Reaches op d t (d.enter t) :=
  ⟨ht, rfl, (Prepares.arrive d).trans (.write _ _ rfl)⟩

lemma store_invoke_andThen (t : Transition) (f : Outcome → Act σ α) (d : Daemon σ) :
    ((Act.store (some t) t.word).andThen fun _ => (invoke run t).andThen f) d =
      ((call run ((d.enter t).slots t.slot)).andThen fun o =>
        (Act.note (.returned t o)).andThen fun _ => f o) ((d.enter t).lookUp t) := by
  rw [andThen_returned (show Act.store (some t) t.word d = (.returned (), d.enter t) from rfl),
    invoke_andThen]
  rfl

/-- Where a poll finds a request and takes it, it runs a hook, and otherwise it has only looked. -/
lemma poll_cases (d : Daemon σ) :
    (∃ a d', ∀ run, execute run .poll d = (.returned a, d')) ∨
      ∃ r begun, Reaches .poll d (.handling r) begun ∧ ∀ run, execute run .poll d =
        ((call run (begun.slots r.slot)).andThen fun o =>
          (Act.note (.returned (.handling r) o)).andThen fun _ => (Transition.handling r).finish o)
            (begun.lookUp (.handling r)) := by
  set r := d.arrive.word
  set looked := d.arrive.note (.loaded r) with hlooked
  have hload : Act.load d = (.returned r, looked) := rfl
  have hpoll (run : Program σ → Act σ Outcome) : execute run .poll d =
      (if r.isTransient then (dispatch run r).andThen fun _ => resolve else resolve) looked := by
    show (poll run).andThen _ d = _
    simp only [poll, bind_eq, pure_eq, andThen_assoc]
    rw [andThen_returned hload]
    split <;> simp only [andThen_assoc] <;> rfl
  cases hr : r.isTransient with
  | false =>
    have hquiet (run : Program σ → Act σ Outcome) : execute run .poll d = resolve looked := by
      rw [hpoll, hr, if_neg Bool.false_ne_true]
    exact .inl ⟨_, _, fun run => (hquiet run).trans (resolve_eq looked)⟩
  | true =>
    by_cases htaken : looked.arrive.word = r
    · refine .inr ⟨r, { looked.arrive with word := .running }.note (.taken r), ⟨hr, rfl, ?_⟩,
        fun run => ?_⟩
      · exact (Prepares.arrive d).trans <| (Prepares.note _ rfl).trans <|
          (Prepares.arrive looked).trans (.write _ .running rfl)
      · have htake : Act.take r looked =
            (.returned true, { looked.arrive with word := .running }.note (.taken r)) := by
          simp only [take, if_pos htaken]
        rw [hpoll, hr, if_pos rfl, dispatch_eq, andThen_assoc, andThen_returned htake, if_pos rfl,
          andThen_assoc, invoke_andThen]
        rfl
    · have htake : Act.take r looked = (.returned false, looked.arrive.note (.superseded r)) := by
        simp only [take, if_neg htaken]
      have hquiet (run : Program σ → Act σ Outcome) :
          execute run .poll d = resolve (looked.arrive.note (.superseded r)) := by
        rw [hpoll, hr, if_pos rfl, dispatch_eq, andThen_assoc, andThen_returned htake,
          if_neg Bool.false_ne_true]
        rfl
      exact .inl ⟨_, _, fun run => (hquiet run).trans (resolve_eq _)⟩

/-- An operation that may make a transition either comes back without one, or runs the hook of one
and then finishes it. -/
lemma execute_cases (hop : op.isAccess = false) (d : Daemon σ) :
    (∃ a d', ∀ run, execute run op d = (.returned a, d')) ∨
      ∃ t begun, Reaches op d t begun ∧ ∀ run, execute run op d =
        ((call run (begun.slots t.slot)).andThen fun o =>
          (Act.note (.returned t o)).andThen fun _ => t.finish o) (begun.lookUp t) := by
  cases op with
  | startAll =>
    refine .inr ⟨.starting, d.enter .starting, reaches_enter trivial, fun run => ?_⟩
    show (startAll run).andThen _ d = _
    simp only [startAll, bind_eq, pure_eq, andThen_assoc]
    exact store_invoke_andThen .starting _ d
  | closeAll =>
    refine .inr ⟨.closing, d.enter .closing, reaches_enter trivial, fun run => ?_⟩
    show (closeAll run).andThen _ d = _
    simp only [closeAll, bind_eq, pure_eq, andThen_assoc]
    exact store_invoke_andThen .closing _ d
  | poll =>
    rcases poll_cases d with hquiet | ⟨r, begun, hbegun, hrun⟩
    · exact .inl hquiet
    · exact .inr ⟨.handling r, begun, hbegun, hrun⟩
  | _ => cases hop

/-! ### How an operation ends -/

/-- Nothing that is done once a hook has come back panics. -/
lemma finish_returned (t : Transition) (o : Outcome) (d : Daemon σ) :
    ∃ a d', ((Act.note (.returned t o)).andThen fun _ => t.finish o) d = (.returned a, d') := by
  cases t with
  | starting | closing => exact ⟨_, _, rfl⟩
  | handling r => cases o <;> exact ⟨_, _, rfl⟩

/-- A transition whose hook reports success tells so and gives notice of it, and nothing else
becomes of the daemon than what comes in meanwhile. -/
lemma finish_passed (ht : t.IsMadeBy op) (left : Daemon σ) :
    ∃ a calm rest,
      ((Act.note (.returned t .passed)).andThen fun _ => t.finish .passed) left =
        (.returned a, calm) ∧ (op.lastLook left).Resembles calm ∧
      calm.trace =
        left.trace ++ (.returned t .passed :: .logged (t.notice .passed) :: rest) ∧
      ∀ e ∈ rest, e.isIncidental = true := by
  set told := (left.note (.returned t .passed)).note (.logged (t.notice .passed)) with htold
  have htrace : told.trace =
      left.trace ++ [.returned t .passed, .logged (t.notice .passed)] := by
    simp only [htold, note, List.append_assoc, List.cons_append, List.nil_append]
  cases t with
  | starting | closing =>
    cases op with
    | startAll | closeAll => exact ⟨_, told, [], rfl, rfl, htrace, by simp⟩
    | _ => cases ht
  | handling r =>
    cases op with
    | poll =>
      obtain ⟨-, asked, hasked, hincidental⟩ := Prepares.arrive told
      set w := told.arrive.word
      refine ⟨.bool w.isAlive, told.arrive.note (.loaded w), asked ++ [.loaded w], rfl, ?_, ?_, ?_⟩
      · have hleft : left.arrive.Resembles told.arrive := resembles_arrive rfl
        exact hleft.trans rfl
      · rw [note, hasked, htrace, List.append_assoc, List.append_assoc]
        rfl
      · exact List.forall_mem_append.mpr ⟨hincidental, List.forall_mem_singleton.mpr rfl⟩
    | _ => cases ht

/-- The hook of the operation's transition has panicked, and the daemon is as the hook left it. -/
structure Abandons (n : Nat) (op : Op σ) (d : Daemon σ) (t : Transition) (hook : Program σ)
    (begun : Daemon σ) (m : String) (left : Daemon σ) : Prop where
  reaches : Reaches op d t begun
  bound : d.slots t.slot = some hook
  panicked : hook.run (perform n) (begun.lookUp t) = (.panicked m, left)

/-- A panic that leaves an operation is that of its hook. Had the hook reported success there, the
operation would have gone on from there. -/
lemma exists_abandons (hop : op.isAccess = false) (h : perform (n + 1) op d = (.panicked m, left)) :
    ∃ t hook begun, Abandons n op d t hook begun m left ∧ performCalmly n op d =
      (((Act.note (.returned t .passed)).andThen fun _ => t.finish .passed).andThen fun a =>
        (Act.note (.ended op a)).andThen fun _ => done a) left := by
  have hperform (run : Program σ → Act σ Outcome) : ((Act.note (.began op)).andThen fun _ =>
      (execute run op).andThen fun a => (Act.note (.ended op a)).andThen fun _ => done a) d =
        (execute run op).andThen (fun a => (Act.note (.ended op a)).andThen fun _ => done a)
          (d.note (.began op)) := rfl
  have hcalm := hperform fun p => p.calm.run (perform n)
  change performCalmly n op d = _ at hcalm
  replace h := (hperform (Program.run (perform n))).symm.trans h
  rcases execute_cases hop (d.note (.began op)) with ⟨a, d', hquiet⟩ | ⟨t, begun, hbegun, hrun⟩
  · rw [andThen_returned (hquiet _)] at h
    cases h
  · have hreaches : Reaches op d t begun :=
      ⟨hbegun.made, hbegun.word, (Prepares.note d rfl).trans hbegun.prepares⟩
    rcases hcall : call (Program.run (perform n)) (begun.slots t.slot) (begun.lookUp t) with
      ⟨o | m' | _, left'⟩
    · obtain ⟨a, d', hfinish⟩ := finish_returned t o left'
      have hreturned : execute (Program.run (perform n)) op (d.note (.began op)) =
          (.returned a, d') := by
        rw [hrun, andThen_returned hcall, hfinish]
      rw [andThen_returned hreturned] at h
      cases h
    · have hpanicked := (hrun _).trans (andThen_panicked hcall)
      rw [andThen_panicked hpanicked] at h
      cases h
      cases hslot : begun.slots t.slot with
      | none =>
        rw [hslot] at hcall
        cases hcall
      | some hook =>
        rw [hslot] at hcall
        have hbound : d.slots t.slot = some hook := (congrFun hreaches.prepares.1 t.slot) ▸ hslot
        refine ⟨t, hook, begun, ⟨hreaches, hbound, hcall⟩, ?_⟩
        have hcalmed : call (fun p => p.calm.run (perform n)) (some hook) (begun.lookUp t) =
            (.returned .passed, left) := hook.run_calm hcall
        rw [hcalm, Act.andThen, hrun, hslot, andThen_returned hcalmed, ← Act.andThen]
    · have hunfinished := (hrun _).trans (andThen_unfinished hcall)
      rw [andThen_unfinished hunfinished] at h
      cases h

/-! ### What a panic leaves -/

lemma slots_lastLook (d : Daemon σ) (op : Op σ) : (op.lastLook d).slots = d.slots := by
  cases op with
  | poll => exact (Prepares.arrive d).1
  | _ => rfl

lemma lastLook_of_nil (h : d.arrivals = []) (op : Op σ) : op.lastLook d = d := by
  cases op with
  | poll => rw [Op.lastLook, arrive, h]
  | _ => rfl

/-- Had the hook reported success instead of its panic, the transition would have been told of. The
daemon would be the same, but for what comes in until the operation is over, and would behave the
same. -/
def IsSpared (n : Nat) (op : Op σ) (d : Daemon σ) (t : Transition) (left : Daemon σ) : Prop :=
  ∃ a calm rest, performCalmly n op d = (.returned a, calm) ∧
    (op.lastLook left).Resembles calm ∧ (op.lastLook left).ActsAs calm ∧
    calm.slots = left.slots ∧ (left.arrivals = [] → calm.word = left.word) ∧
    calm.trace = left.trace ++ (.returned t .passed :: .logged (t.notice .passed) :: rest) ∧
    ∀ e ∈ rest, e.isIncidental = true

/-- What a panic leaves of an operation, once the hook of its transition `t` has told `within`. -/
structure IsConsistent (n : Nat) (op : Op σ) (d : Daemon σ) (t : Transition) (m : String)
    (left : Daemon σ) (within : List (Event σ)) : Prop where
  /-- Hooks that do not speak in the daemon's name leave one notice of each transition that came to
  an end inside of this one. -/
  notices : (d.Binds fun r => r.isNotice = false) → within.filterMap Event.notice? =
    (within.filterMap Event.completed?).map fun c => c.1.notice c.2
  /-- The daemon is as it would be had the hook reported success. -/
  spared : IsSpared n op d t left
  /-- The lock of the slots is free, and whatever is done later finds it free. -/
  lock : ∃ started, Guarded.perform (n + 1) op { daemon := d } =
      (some (.panicked m), ⟨left, false, started⟩) ∧
    ∀ depth (p : Program σ), ∃ started', p.runGuarded (Guarded.perform depth)
      ⟨left, false, started⟩ = (some (p.run (perform depth) left).1,
        ⟨(p.run (perform depth) left).2, false, started'⟩)
  /-- A request that is taken from now on was put in the word after the hook was started. -/
  consumed : ∀ depth (p : Program σ) es,
    (p.run (perform depth) left).2.trace = left.trace ++ es →
      ∀ before r after, within ++ es = before ++ .taken r :: after → ∃ e ∈ before, e.Puts r
  /-- The daemon has stopped only if it is closed or was stopped while the hook ran. -/
  stopped : left.word = .stop → t = .closing ∨ ∃ e ∈ within, e.Puts .stop

namespace Abandons

variable {hook : Program σ} {begun : Daemon σ} {within : List (Event σ)}

/-- What the hook has told, and how it leads to what it left. -/
lemma leads (h : Abandons n op d t hook begun m left) :
    (begun.lookUp t).Leads .free left .free := by
  have hleads := Program.tells_run (tells_perform n) hook (begun.lookUp t)
  rwa [h.panicked] at hleads

/-- Hooks that do not speak in the daemon's name leave one notice of each transition that came to an
end inside of them. -/
lemma notices (h : Abandons n op d t hook begun m left)
    (hd : d.Binds fun r => r.isNotice = false)
    (hwithin : left.trace = (begun.lookUp t).trace ++ within) :
    within.filterMap Event.notice? =
      (within.filterMap Event.completed?).map fun c => c.1.notice c.2 := by
  have hbegun : (begun.lookUp t).Binds fun r => r.isNotice = false := by
    intro slot p hp
    exact hd slot p ((congrFun h.reaches.prepares.1 slot).symm.trans hp)
  obtain ⟨-, es, cs, htrace, hstory⟩ :=
    habit_reports.program n (hd t.slot hook h.bound) (begun.lookUp t) hbegun
  rw [h.panicked] at htrace
  obtain rfl : within = es := List.append_cancel_left (hwithin.symm.trans htrace)
  rw [hstory.notices_eq, hstory.completed_eq]

lemma spared (h : Abandons n op d t hook begun m left) (hcalm : performCalmly n op d =
      (((Act.note (.returned t .passed)).andThen fun _ => t.finish .passed).andThen fun a =>
        (Act.note (.ended op a)).andThen fun _ => done a) left) :
    IsSpared n op d t left := by
  obtain ⟨a, calm, rest, hfinish, hresembles, htrace, hrest⟩ := finish_passed h.reaches.made left
  rw [andThen_returned hfinish] at hcalm
  have hended : calm.Resembles (calm.note (.ended op a)) := rfl
  have hsame := hresembles.trans hended
  refine ⟨a, calm.note (.ended op a), rest ++ [.ended op a], hcalm, hsame, hsame.actsAs,
    hsame.slots_eq.trans (slots_lastLook left op), fun hnil => ?_, ?_, ?_⟩
  · rw [hsame.word_eq, lastLook_of_nil hnil]
  · rw [note, htrace, List.append_assoc]
    rfl
  · exact List.forall_mem_append.mpr ⟨hrest, List.forall_mem_singleton.mpr rfl⟩

lemma word_lookUp (h : Abandons n op d t hook begun m left) : (begun.lookUp t).word = t.word :=
  h.reaches.word

/-- What is taken after the hook was started was put in the word since. -/
lemma consumed (h : Abandons n op d t hook begun m left)
    (hpath : View.Path ((begun.lookUp t).view .free) within (left.view .free)) (depth : Nat)
    (p : Program σ) {es before after : List (Event σ)} {r : State}
    (hes : (p.run (perform depth) left).2.trace = left.trace ++ es)
    (hsplit : within ++ es = before ++ .taken r :: after) : ∃ e ∈ before, e.Puts r := by
  obtain ⟨es', hes', hlater⟩ := exists_path depth p left
  obtain rfl : es = es' := List.append_cancel_left (hes.symm.trans hes')
  have hall := hpath.append hlater
  rw [hsplit] at hall
  refine hall.taken_puts ?_
  show (begun.lookUp t).word.isTransient = false
  rw [h.word_lookUp]
  cases t <;> rfl

lemma stopped (h : Abandons n op d t hook begun m left)
    (hpath : View.Path ((begun.lookUp t).view .free) within (left.view .free))
    (hstop : left.word = .stop) : t = .closing ∨ ∃ e ∈ within, e.Puts .stop := by
  have hword : wordAfter t.word within = .stop := by
    rw [← h.word_lookUp, ← hstop]
    exact hpath.word_eq.symm
  rcases eq_or_puts_of_wordAfter hword (by decide) with hfirst | hputs
  · cases t with
    | closing => exact .inl rfl
    | starting | handling => cases hfirst
  · exact .inr hputs

end Abandons

/-- Whatever a hook does to the daemon before it panics, wherever the daemon stands and whatever
comes in: when the panic leaves the operation whose transition runs the hook, the daemon is as the
hook left it, and consistent. -/
theorem panic_leaves_consistent (n : Nat) {op : Op σ} (hop : op.isAccess = false)
    {d left : Daemon σ} {m : String} (h : perform (n + 1) op d = (.panicked m, left)) :
    ∃ t hook begun within, Abandons n op d t hook begun m left ∧
      left.trace = (begun.lookUp t).trace ++ within ∧
      IsConsistent n op d t m left within := by
  obtain ⟨t, hook, begun, habandons, hcalm⟩ := exists_abandons hop h
  obtain ⟨within, hwithin, hpath⟩ := habandons.leads
  refine ⟨t, hook, begun, within, habandons, hwithin, {
    notices := fun hd => habandons.notices hd hwithin
    spared := habandons.spared hcalm
    lock := ?_
    consumed := fun depth p es hes before r after => habandons.consumed hpath depth p hes
    stopped := habandons.stopped hpath }⟩
  obtain ⟨es, -, hmirrors⟩ := Guarded.mirrors_perform (n + 1) op { daemon := d } rfl
  rw [h] at hmirrors
  refine ⟨_, hmirrors, fun depth p => ?_⟩
  obtain ⟨es', -, hlater⟩ := Guarded.mirrors_run (Guarded.mirrors_perform depth) p
    (Guarded.become { daemon := d } left es) rfl
  exact ⟨_, hlater⟩

/-- A daemon whose reload hook gives its own slot to a hook that fails, lets a request be handled,
asks for another one and panics. -/
def hasty : Daemon Unit where
  app := ()
  word := .reload
  slots
    | .reload => some <| .perform (.bind .reload (.done .failed)) fun _ =>
        .perform (.request .user1) fun _ => .perform .poll fun _ =>
          .perform (.request .user2) fun _ => .panic "out of hand"
    | .user1 => some <| .done .passed
    | _ => none

/-- The request that the hook asked for last waits, as it would have waited without the panic. -/
theorem panic_leaves_consistent_hasty :
    Op.isAccess (σ := Unit) .poll = false ∧ ∃ left t within,
      perform 2 .poll hasty = (.panicked "out of hand", left) ∧ left.word = .user2 ∧
        IsConsistent 1 .poll hasty t "out of hand" left within ∧
        ∃ a calm, performCalmly 1 .poll hasty = (.returned a, calm) ∧ calm.word = .user2 := by
  have hran : perform 2 .poll hasty = (.panicked "out of hand", (perform 2 .poll hasty).2) := rfl
  have hword : (perform 2 .poll hasty).2.word = .user2 := rfl
  obtain ⟨t, hook, begun, within, -, -, hconsistent⟩ := panic_leaves_consistent 1 rfl hran
  obtain ⟨a, calm, -, hcalm, -, -, -, hsame, -⟩ := hconsistent.spared
  exact ⟨rfl, _, t, within, hran, hword, hconsistent, a, calm, hcalm, (hsame rfl).trans hword⟩

end Daemon

end Overseer
