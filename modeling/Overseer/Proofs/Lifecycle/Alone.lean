import Overseer.Proofs.Lifecycle.Runs

/-!
# A daemon that is left alone

While nothing comes in from outside, what an operation comes to and what it tells is settled by the
word and by the hook it runs. The hooks here are those that change the application's state and
report an outcome.
-/

namespace Overseer

variable {σ : Type} {d : Daemon σ} {perform : Op σ → Act σ Answer} {run : Program σ → Act σ Outcome}
  {f : σ → Outcome × σ × Records} {t : Transition} {r : State}

lemma Daemon.arrive_of_nil (h : d.arrivals = []) : d.arrive = d := by
  rw [arrive, h]

/-- What is told of a hook that a transition runs. -/
def Transition.tale (t : Transition) (f : σ → Outcome × σ × Records) (a : σ) (w : State) :
    List (Event σ) :=
  .invoked t (some (.act f)) w :: ((f a).2.2.map .logged ++ [.returned t (f a).1])

namespace Act

lemma load_of_nil (h : d.arrivals = []) :
    load d = (.returned d.word, { d with trace := d.trace ++ [.loaded d.word] }) := by
  simp only [load, Daemon.arrive_of_nil h, Daemon.note]

lemma store_of_nil (h : d.arrivals = []) (writer : Option Transition) (s : State) :
    store writer s d =
      (.returned (), { d with word := s, trace := d.trace ++ [.stored writer s] }) := by
  simp only [store, Daemon.arrive_of_nil h, Daemon.note]

lemma request_of_nil (h : d.arrivals = []) (hw : d.word ≠ .stop) (s : State) :
    request s d =
      (.returned true, { d with word := s, trace := d.trace ++ [.requested s true] }) := by
  have hgranted : (d.word != .stop) = true := bne_iff_ne.mpr hw
  simp only [request, Daemon.arrive_of_nil h, Daemon.ask, if_neg hw, hgranted, Daemon.note]

lemma take_of_nil (h : d.arrivals = []) (hw : d.word = r) :
    take r d =
      (.returned true, { d with word := .running, trace := d.trace ++ [.taken r] }) := by
  simp only [take, Daemon.arrive_of_nil h, if_pos hw, Daemon.note]

lemma log_eq (level : Level) (source : Source) (message : String) (d : Daemon σ) :
    log level source message d =
      (.returned (), { d with trace := d.trace ++ [.logged ⟨level, source, message⟩] }) := rfl

end Act

namespace Daemon

open Act

lemma invoke_act (hslot : d.slots t.slot = some (.act f)) :
    invoke (Program.run perform) t d = (.returned (f d.app).1,
      { d with app := (f d.app).2.1, trace := d.trace ++ t.tale f d.app d.word }) := by
  rw [invoke_eq, hslot]
  simp only [call, Program.act, Program.run, Act.andThen, Act.note, Act.modify, done, Daemon.note,
    Transition.tale, List.append_assoc, List.cons_append, List.nil_append]

/-- A poll that has nothing to handle looks at the word twice. -/
lemma poll_of_settled (h : d.arrivals = []) (hw : d.word.isTransient = false) :
    poll run d = (.returned d.word.isAlive,
      { d with trace := d.trace ++ [.loaded d.word, .loaded d.word] }) := by
  simp only [poll, bind_eq, pure_eq]
  refine (andThen_returned (load_of_nil h)).trans ?_
  rw [hw, if_neg Bool.false_ne_true]
  refine (andThen_returned (load_of_nil (by exact h))).trans ?_
  simp only [done, List.append_assoc, List.cons_append, List.nil_append]

/-- What is told of a request that is handled. -/
def dispatchTale (r : State) (f : σ → Outcome × σ × Records) (a : σ) : List (Event σ) :=
  .taken r :: ((Transition.handling r).tale f a .running ++
    [.logged ⟨.info, .lifecycle,
      "Handled " ++ r.name ++ " request (hook: " ++ (f a).1.name ++ ")"⟩])

lemma dispatch_of_nil (h : d.arrivals = []) (hw : d.word = r)
    (hslot : d.slots r.slot = some (.act f)) (hpassed : (f d.app).1.isFailed = false) :
    dispatch (Program.run perform) r d = (.returned (), { d with
      word := .running, app := (f d.app).2.1, trace := d.trace ++ dispatchTale r f d.app }) := by
  rw [dispatch_eq]
  refine (andThen_returned (take_of_nil h hw)).trans ?_
  rw [if_pos rfl]
  refine (andThen_returned (invoke_act (t := .handling r) (by exact hslot))).trans ?_
  rw [settleRequest, hpassed, if_neg Bool.false_ne_true, log_eq]
  simp only [dispatchTale, List.append_assoc, List.cons_append, List.nil_append]

/-- A poll handles the request it finds. -/
lemma poll_of_request (h : d.arrivals = []) (hw : d.word = r) (hr : r.isTransient = true)
    (hslot : d.slots r.slot = some (.act f)) (hpassed : (f d.app).1.isFailed = false) :
    poll (Program.run perform) d = (.returned true, { d with
      word := .running
      app := (f d.app).2.1
      trace := d.trace ++ (.loaded r :: (dispatchTale r f d.app ++ [.loaded .running])) }) := by
  simp only [poll, bind_eq, pure_eq]
  refine (andThen_returned (load_of_nil h)).trans ?_
  rw [hw, if_pos hr]
  refine (andThen_returned (dispatch_of_nil (by exact h) (by exact rfl) (by exact hslot)
    (by exact hpassed))).trans ?_
  refine (andThen_returned (load_of_nil (by exact h))).trans ?_
  simp only [done, List.append_assoc, List.cons_append, List.nil_append]
  rfl

/-- What is told of a transition that sets the word. -/
def settingTale (t : Transition) (w : State) (f : σ → Outcome × σ × Records) (a : σ)
    (said : String) : List (Event σ) :=
  .stored (some t) w ::
    (t.tale f a w ++ [.logged ⟨.info, .lifecycle, said ++ (f a).1.name ++ ")"⟩])

lemma startAll_of_nil (h : d.arrivals = []) (hslot : d.slots .start = some (.act f)) :
    startAll (Program.run perform) d = (.returned (f d.app).1, { d with
      word := .running
      app := (f d.app).2.1
      trace := d.trace ++
        settingTale .starting .running f d.app "Daemon started (start hook: " }) := by
  simp only [startAll, bind_eq, pure_eq]
  refine (andThen_returned (store_of_nil h _ _)).trans ?_
  refine (andThen_returned (invoke_act (t := .starting) (by exact hslot))).trans ?_
  refine (andThen_returned (log_eq _ _ _ _)).trans ?_
  simp only [done, settingTale, List.append_assoc, List.cons_append, List.nil_append]

lemma closeAll_of_nil (h : d.arrivals = []) (hslot : d.slots .close = some (.act f)) :
    closeAll (Program.run perform) d = (.returned (f d.app).1, { d with
      word := .stop
      app := (f d.app).2.1
      trace := d.trace ++ settingTale .closing .stop f d.app "Daemon closed (close hook: " }) := by
  simp only [closeAll, bind_eq, pure_eq]
  refine (andThen_returned (store_of_nil h _ _)).trans ?_
  refine (andThen_returned (invoke_act (t := .closing) (by exact hslot))).trans ?_
  refine (andThen_returned (log_eq _ _ _ _)).trans ?_
  simp only [done, settingTale, List.append_assoc, List.cons_append, List.nil_append]

end Daemon

end Overseer
