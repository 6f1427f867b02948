import Overseer.Proofs.Session.Service
import Overseer.Proofs.Text.Numerals
import Overseer.Remote

/-!
# Whom a control signal reaches

A control signal is sent at most once, to the process whose number stands in the PID file. That is
one process, unless the file holds the number zero: the system takes that for the whole process
group of the sender.
-/

namespace Overseer

/-- The kill that an event tells of. -/
def Event.kill? {σ : Type} : Event σ → Option Kill
  | .killed k => some k
  | _ => none

/-- The number of the target is one that a single process can have. -/
def Kill.IsSingle (k : Kill) : Prop := 1 ≤ k.target ∧ k.target ≤ 2147483647

/-- The run comes back and sends these signals on its way. -/
def Act.Kills {σ α : Type} (ks : List Kill) (x : Act σ α) : Prop :=
  ∀ d, ∃ a d' es, x d = (.returned a, d') ∧ d'.trace = d.trace ++ es ∧
    es.filterMap Event.kill? = ks

namespace Act

variable {α β : Type} {ks ks' : List Kill}

lemma kills_done (a : α) : (done a : Act Site α).Kills [] :=
  fun d => ⟨a, d, [], rfl, (List.append_nil _).symm, rfl⟩

lemma kills_note (e : Event Site) : (note e).Kills (e.kill?.toList) := by
  intro d
  refine ⟨(), d.note e, [e], rfl, rfl, ?_⟩
  cases hkill : e.kill? <;> simp [hkill]

/-- What a daemon hears when it signals itself is no kill. -/
lemma kills_hear (sig : OsSignal) : (modify (·.hear sig) : Act Site Unit).Kills [] := by
  intro d
  obtain ⟨es, htrace, hes, -⟩ := d.hear_told sig
  refine ⟨(), d.hear sig, es, rfl, htrace, List.filterMap_eq_nil_iff.mpr fun e he => ?_⟩
  obtain ⟨b, rfl⟩ := hes e he
  rfl

lemma Kills.andThen {x : Act Site α} {f : α → Act Site β} (hx : x.Kills ks)
    (hf : ∀ a, (f a).Kills ks') : (x.andThen f).Kills (ks ++ ks') := by
  intro d
  obtain ⟨a, d', es, hrun, htrace, hes⟩ := hx d
  obtain ⟨b, d'', es', hrun', htrace', hes'⟩ := hf a d'
  refine ⟨b, d'', es ++ es', by rw [andThen_returned hrun, hrun'], ?_, ?_⟩
  · rw [htrace', htrace, List.append_assoc]
  · rw [List.filterMap_append, hes, hes']

lemma kills_get {f : Daemon Site → Act Site β} (hf : ∀ d, (f d).Kills ks) :
    (get.andThen f).Kills ks :=
  fun d => hf d d

end Act

namespace Daemon

open Act

variable {signal : ControlSignal} {pid : Nat}

/-- A signal that is ordered is sent once, whatever the system answers. -/
lemma kills_send_of_ordered {k : Kill} (h : signal.order pid = .ok k) :
    (send signal pid : Act Site _).Kills [k] := by
  unfold send
  rw [h]
  simp only [bind_eq, pure_eq]
  refine (kills_note (.killed k)).andThen fun _ => (kills_get fun d => ?_ : Kills [] _)
  have hsent (r : Except Failure Unit) (message : String) :
      ((log .info .signals message).andThen fun _ => done r : Act Site _).Kills [] :=
    (kills_note (.logged _)).andThen fun _ => kills_done r
  by_cases hknown : (d.isTarget k || d.neighbours.contains k.target) = true
  · rw [if_pos hknown]
    by_cases hself : d.isTarget k = true
    · rw [if_pos hself]
      exact (kills_hear k.signal).andThen fun _ => hsent _ _
    · rw [if_neg hself]
      exact hsent _ _
  · rw [if_neg hknown]
    exact kills_done _

/-- A signal that is not ordered is not sent. -/
lemma send_of_refused {f : Failure} (h : signal.order pid = .error f) (d : Daemon Site) :
    send signal pid d = (.returned (.error f), d) := by
  unfold send
  rw [h]
  rfl

end Daemon

lemma ControlSignal.order_eq_ok {signal : ControlSignal} {pid : Nat} (h : pid < 2147483648) :
    signal.order pid = .ok ⟨pid, signal.osSignal⟩ := by
  rw [order, if_pos h]

lemma ControlSignal.order_eq_error {signal : ControlSignal} {pid : Nat} (h : ¬ pid < 2147483648) :
    signal.order pid = .error (.signalSend signal.name pid "PID out of range") := by
  rw [order, if_neg h]

namespace Remote

variable {path : Option String} {signal : ControlSignal} {d : Daemon Site}

/-- The process that is meant is the one whose number stands in the named file. -/
lemma target_eq_ok {h : Host} {n : Nat} (htarget : target path h = .ok n) :
    ∃ p, path = some p ∧ h.Stores p n := by
  cases path with
  | none => cases htarget
  | some p =>
    simp only [target] at htarget
    split at htarget
    · cases htarget
    · cases htarget
    · cases htarget
      rename_i hread
      exact ⟨p, rfl, (PidFile.read_eq_some.mp hread).1⟩

/-- What is made of the answer of the system. -/
def report : Except Failure Unit → Act Site (Except ProgramFailure Unit)
  | .error f => .done (.error (.service f))
  | .ok () => .done (.ok ())

lemma kills_report (r : Except Failure Unit) : (report r).Kills [] := by
  cases r with
  | error f => exact Act.kills_done _
  | ok => exact Act.kills_done _

lemma send_of_error {f : ProgramFailure} (h : target path d.app.host = .error f) :
    send path signal d = (.returned (.error f), d) := by
  simp only [send, Act.bind_eq, Act.andThen, Act.get, h]
  rfl

lemma send_of_ok {n : Nat} (h : target path d.app.host = .ok n) :
    send path signal d = (Daemon.send signal n).andThen report d := by
  simp only [send, Act.bind_eq, Act.andThen, Act.get, h]
  rfl

/-- Sending a control signal comes back. Either it fails and no signal was sent, or just one was: to
the process whose number stands in the file, which is a single process, since zero does not stand
there. -/
theorem signal_reaches_one (hzero : ∀ p, path = some p → ¬ d.app.host.Stores p 0) :
    ∃ r d' es, send path signal d = (.returned r, d') ∧ d'.trace = d.trace ++ es ∧
      ((es.filterMap Event.kill? = [] ∧ ∃ f, r = .error f) ∨
        ∃ p n, path = some p ∧ d.app.host.Stores p n ∧
          es.filterMap Event.kill? = [⟨n, signal.osSignal⟩] ∧
          Kill.IsSingle ⟨n, signal.osSignal⟩) := by
  cases htarget : target path d.app.host with
  | error f =>
    exact ⟨_, d, [], send_of_error htarget, (List.append_nil _).symm, .inl ⟨rfl, f, rfl⟩⟩
  | ok n =>
    obtain ⟨p, hpath, hstores⟩ := target_eq_ok htarget
    rw [send_of_ok htarget]
    by_cases hn : n < 2147483648
    · have hone : 1 ≤ n := by
        rw [Nat.one_le_iff_ne_zero]
        rintro rfl
        exact hzero p hpath hstores
      have hordered : signal.order n = .ok ⟨n, signal.osSignal⟩ := ControlSignal.order_eq_ok hn
      have hkills := (Daemon.kills_send_of_ordered hordered).andThen kills_report
      obtain ⟨r, d', es, hrun, htrace, hes⟩ := hkills d
      refine ⟨r, d', es, hrun, htrace, .inr ⟨p, n, hpath, hstores, hes, hone, ?_⟩⟩
      exact Nat.le_of_lt_succ hn
    · have hrefused : Daemon.send signal n d = (.returned (.error _), d) :=
        Daemon.send_of_refused (ControlSignal.order_eq_error hn) d
      rw [Act.andThen_returned hrefused]
      exact ⟨_, d, [], rfl, (List.append_nil _).symm, .inl ⟨rfl, _, rfl⟩⟩

/-- A daemon among whose files is a PID file with this content. -/
def noted (content : String) : Daemon Site where
  app := { host := { tree := ⟨[(["d.pid"], .file (Text.encode content))]⟩ } }
  neighbours := [2147483647]

lemma not_stores_zero (content : String) {n : Nat}
    (h : PidFile.read { path := "d.pid" } (noted content).app.host = .ok (some n)) (hn : n ≠ 0) :
    ¬ (noted content).app.host.Stores "d.pid" 0 := by
  intro hzero
  have hread := PidFile.read_eq_some (p := { path := "d.pid" }).mpr ⟨hzero, by decide⟩
  rw [h] at hread
  cases hread
  exact hn rfl

/-- The largest number that a process can have, with leading zeros and white space around it. -/
theorem signal_reaches_one_last :
    let d := noted " +002147483647\n"
    (send (some "d.pid") .reload d).2.trace.filterMap Event.kill? = [⟨2147483647, .hup⟩] ∧
      ∃ r d' es, send (some "d.pid") .reload d = (.returned r, d') ∧ d'.trace = d.trace ++ es ∧
        ((es.filterMap Event.kill? = [] ∧ ∃ f, r = .error f) ∨
          ∃ p n, some "d.pid" = some p ∧ d.app.host.Stores p n ∧
            es.filterMap Event.kill? = [⟨n, .hup⟩] ∧ Kill.IsSingle ⟨n, .hup⟩) := by
  intro d
  refine ⟨by decide +kernel, signal_reaches_one fun p hpath => ?_⟩
  cases hpath
  exact not_stores_zero _ (n := 2147483647) (by decide +kernel) (by decide)

/-- The number zero is taken for a process: the signal goes to the whole process group of the
sender. -/
theorem signal_to_group :
    let (r, d) := send (some "d.pid") .user1 (noted "0")
    r = .returned (.ok ()) ∧ d.trace.filterMap Event.kill? = [⟨0, .usr1⟩] ∧
      ¬ Kill.IsSingle ⟨0, .usr1⟩ := by
  refine ⟨?_, ?_, ?_⟩
  · decide +kernel
  · decide +kernel
  · rintro ⟨hpositive, -⟩
    exact absurd hpositive (by decide)

end Remote

end Overseer
