import Mathlib.Data.List.Infix
import Overseer.Proofs.PidFile.Authors

/-!
# What goes with a PID file

A PID file that is dropped takes away what its path names by then, if it has written a file since
it was last told to remove it, and nothing else. That is its own file as long as nothing on the way
to the file is taken away and nobody else writes it; whoever puts another file there loses it.
-/

namespace Overseer

namespace PidFiles

variable {w w' w₁ u : PidFiles} {i pid : Nat} {p : PidFile} {l : Location} {path : String}
  {way : FileTree} {after : List PidAction}

/-- The files that this PID file was the last to write go, and all else stays. -/
structure TakesOwn (w w' : PidFiles) (i : Nat) : Prop where
  own_gone : ∀ l, w.Wrote i l → w'.host.tree.get? l = none
  others_stay : ∀ l e, w.host.tree.get? l = some e → ¬ w.Wrote i l →
    w'.host.tree.get? l = some e

/-- The path of an owner names a file that it was the last to write, if it names anything, and
there is no other such file. -/
structure NamesOwn (w : PidFiles) (i : Nat) (p : PidFile) : Prop where
  wrote : p.isOwned = true → ∀ l, w.host.named? p.path = some l → w.Wrote i l
  named : ∀ l, w.Wrote i l → p.isOwned = true ∧ w.host.named? p.path = some l

/-- A PID file that has written nothing yet writes where its path leads, which is told by a tree
`way`. From then on whatever belongs to the way stays, and nobody else writes the file. -/
structure Undisturbed (w : PidFiles) (i pid : Nat) (after : List PidAction) (path : String)
    (way : FileTree) (l : Location) : Prop where
  first : ∀ l, w.author l ≠ some i
  kept : ∀ a ∈ after, a ≠ .remove i ∧ a ≠ .drop i
  leads : Host.named? ⟨way, w.host.cwd⟩ path = some l
  file : ∃ content, way.get? l = some (.file content)
  spared : ∀ bs u, bs <+: after → w.run (.write i pid :: bs) = some u →
    way.Grows u.host.tree ∧ u.author l = some i

/-! ### What a drop takes away -/

lemma get?_of_drop (hp : w.file? i = some p) (hdrop : w.step (.drop i) = some w')
    (l : Location) : w'.host.tree.get? l =
      if p.isOwned = true ∧ w.host.named? p.path = some l then none
      else w.host.tree.get? l := by
  obtain ⟨q, hq, rfl⟩ := Option.map_eq_some_iff.mp hdrop
  obtain rfl : p = q := Option.some.inj (hp.symm.trans hq)
  have hhost : ((w.withHost (p.drop w.host).1).place i none).host =
      if p.isOwned then (p.remove w.host).host else w.host := p.host_drop w.host
  rw [hhost]
  cases howned : p.isOwned with
  | false => simp
  | true =>
    rw [if_pos rfl, PidFile.host_remove]
    cases hnamed : w.host.named? p.path with
    | none => simp
    | some l' =>
      obtain ⟨hl', -⟩ := Host.stands_of_named? hnamed
      by_cases hl : l' = l
      · subst hl
        simpa using FileTree.get?_erase_self w.host.tree hl'
      · simpa [hl] using FileTree.get?_erase_of_ne w.host.tree (Ne.symm hl)

lemma takesOwn_iff (hp : w.file? i = some p) (hdrop : w.step (.drop i) = some w') :
    w.TakesOwn w' i ↔ w.NamesOwn i p := by
  have hget := get?_of_drop hp hdrop
  constructor
  · rintro ⟨hgone, hstay⟩
    refine ⟨fun howned l hnamed => ?_, fun l hwrote => ?_⟩
    · by_contra hforeign
      obtain ⟨-, e, hstands, -⟩ := Host.stands_of_named? hnamed
      have hstands' := hstay l e hstands hforeign
      rw [hget, if_pos ⟨howned, hnamed⟩] at hstands'
      cases hstands'
    · by_contra hnot
      have hgone' := hgone l hwrote
      obtain ⟨content, hstands⟩ := hwrote.1
      rw [hget, if_neg hnot, hstands] at hgone'
      cases hgone'
  · rintro ⟨hwrote, hnamed⟩
    refine ⟨fun l hown => ?_, fun l e hstands hforeign => ?_⟩
    · rw [hget, if_pos (hnamed l hown)]
    · rw [hget, if_neg, hstands]
      rintro ⟨howned, hl⟩
      exact hforeign (hwrote howned l hl)

/-! ### Files that are left alone -/

/-- As long as the way is there, the path names the file at its end. -/
lemma Undisturbed.names (h : w₁.Undisturbed i pid after path way l)
    (hgrows : way.Grows u.host.tree) (hcwd : u.host.cwd = w₁.host.cwd) :
    u.host.named? path = some l ∧ ∃ content, u.host.tree.get? l = some (.file content) := by
  have hhost : Host.Grows ⟨way, w₁.host.cwd⟩ u.host := ⟨hgrows, hcwd⟩
  refine ⟨Host.named?_of_grows hhost h.leads, ?_⟩
  obtain ⟨content, hfile⟩ := h.file
  obtain ⟨e, hget, hmatches⟩ := hgrows l _ hfile
  cases e with
  | file content' => exact ⟨content', hget⟩
  | directory | link => exact hmatches.elim

/-- What is known of a PID file that was left alone since its first write. -/
structure Settled (w₁ : PidFiles) (i : Nat) (path : String) (l : Location) (u : PidFiles) :
    Prop where
  owns : ∃ p, u.file? i = some p ∧ p.path = path ∧ p.isOwned = true
  cwd : u.host.cwd = w₁.host.cwd
  only : ∀ l', u.author l' = some i → l' = l

/-- A write along the way puts its bytes in the file at its end. -/
lemma Undisturbed.written (h : w₁.Undisturbed i pid after path way l) {pid' : Nat}
    (hp : u.file? i = some p) (hpath : p.path = path) (hstep : u.step (.write i pid') = some w')
    (hgrows : way.Grows w'.host.tree) (hcwd : w'.host.cwd = w₁.host.cwd) {l' : Location}
    (hwritten : p.written? pid' u.host = some l') : l' = l := by
  obtain ⟨q, hq, hhost, -⟩ := file?_of_write hstep
  obtain rfl : p = q := Option.some.inj (hp.symm.trans hq)
  obtain ⟨hnamed, content, hfile⟩ := h.names hgrows hcwd
  have hleads := Host.resolve_create_of_named? hnamed hfile
  have hfound := (PidFile.resolve_of_written? hwritten).2
  rw [← hhost, hpath, hleads] at hfound
  exact (Resolved.found.inj hfound).1.symm

lemma Undisturbed.begins (h : w₁.Undisturbed i pid after path way l) (hp : w₁.file? i = some p)
    (hpath : p.path = path) (hstep : w₁.step (.write i pid) = some u)
    (hgrows : way.Grows u.host.tree) (hauthor : u.author l = some i) :
    w₁.Settled i path l u := by
  have hcwd := cwd_of_step hstep
  -- whatever it has written afterwards it has written now
  have hnow {l' : Location} (hl' : u.author l' = some i) : p.written? pid w₁.host = some l' := by
    rcases author_of_step hstep hl' with hbefore | ⟨_, q, heq, hq, hwritten⟩ | ⟨_, heq, -⟩
    · exact absurd hbefore (h.first l')
    · cases heq
      obtain rfl : p = q := Option.some.inj (hp.symm.trans hq)
      exact hwritten
    · cases heq
  refine ⟨?_, hcwd, fun l' hl' => h.written hp hpath hstep hgrows hcwd (hnow hl')⟩
  obtain ⟨q, hq, -, hfile⟩ := file?_of_write hstep
  obtain rfl : p = q := Option.some.inj (hp.symm.trans hq)
  refine ⟨_, by rw [hfile, if_pos rfl], (p.path_write pid _).trans hpath, ?_⟩
  rw [(PidFile.resolve_of_written? (hnow hauthor)).1]

/-- Nothing that happens on the way changes what is known. -/
lemma Undisturbed.goesOn (h : w₁.Undisturbed i pid after path way l) {a : PidAction}
    (hu : w₁.Settled i path l u) (hstep : u.step a = some w') (ha : a ≠ .remove i ∧ a ≠ .drop i)
    (hgrows : way.Grows w'.host.tree) (hauthor : w'.author l = some i) :
    w₁.Settled i path l w' := by
  obtain ⟨p, hp, hpath, howned⟩ := hu.owns
  have hcwd := (cwd_of_step hstep).trans hu.cwd
  refine ⟨?_, hcwd, fun l' hl' => ?_⟩
  · obtain ⟨p', hp', hpath', hkeeps⟩ := file?_of_step hstep hp ha
    exact ⟨p', hp', hpath'.trans hpath, hkeeps howned⟩
  · rcases author_of_step hstep hl' with hbefore | ⟨_, q, rfl, hq, hwritten⟩ | ⟨l₀, rfl, hmoved⟩
    · exact hu.only l' hbefore
    · obtain rfl : p = q := Option.some.inj (hp.symm.trans hq)
      exact h.written hp hpath hstep hgrows hcwd hwritten
    · -- its file was moved away, unless it was moved to where it was
      obtain rfl := hu.only l₀ hmoved
      by_contra hne
      obtain ⟨e, he, rfl⟩ := Option.map_eq_some_iff.mp hstep
      simp [credit, Ne.symm hne] at hauthor

/-- A PID file whose way and file were left alone names its own file and no other. -/
lemma Undisturbed.namesOwn (h : w₁.Undisturbed i pid after path way l)
    (hp₁ : w₁.file? i = some p) (hpath : p.path = path)
    (hrun : w₁.run (.write i pid :: after) = some w) :
    ∃ p', w.file? i = some p' ∧ w.NamesOwn i p' := by
  obtain ⟨w₂, hstep, hrest⟩ := Option.bind_eq_some_iff.mp hrun
  have hspared {bs : List PidAction} {u : PidFiles} (hbs : bs <+: after)
      (hu : w₂.run bs = some u) : way.Grows u.host.tree ∧ u.author l = some i :=
    h.spared bs u hbs (by rw [run, hstep]; exact hu)
  obtain ⟨hgrows₂, hauthor₂⟩ := hspared List.nil_prefix rfl
  have hsettled : after <+: after → w₁.Settled i path l w := by
    refine runs.invariant (P := fun bs u => bs <+: after → w₁.Settled i path l u)
      (fun _ => h.begins hp₁ hpath hstep hgrows₂ hauthor₂) ?_ hrest
    intro bs b u u' hbs hu hnext hprefix
    have hmem : b ∈ after := hprefix.subset (by simp)
    obtain ⟨hgrows, hauthor⟩ := hspared hprefix (by rw [runs.concat, hbs]; exact hnext)
    exact h.goesOn (hu ((List.prefix_append bs [b]).trans hprefix)) hnext (h.kept b hmem) hgrows
      hauthor
  obtain ⟨⟨p', hp', hpath', howned⟩, hcwd, honly⟩ := hsettled List.prefix_rfl
  obtain ⟨hgrows, hauthor⟩ := hspared List.prefix_rfl hrest
  obtain ⟨hnamed, hfile⟩ := h.names hgrows hcwd
  refine ⟨p', hp', fun _ l' hl' => ?_, fun l' hl' => ?_⟩
  · rw [hpath', hnamed] at hl'
    cases hl'
    exact ⟨hfile, hauthor⟩
  · obtain rfl := honly l' hl'.2
    exact ⟨howned, hpath' ▸ hnamed⟩

/-- A PID file that has written nothing is the author of nothing. -/
lemma author_of_unwritten {h : Host} {as : List PidAction} (hrun : (start h).run as = some w)
    (hfirst : ∀ pid, .write i pid ∉ as) : ∀ l, w.author l ≠ some i := by
  refine runs.invariant (P := fun bs u => (∀ pid, .write i pid ∉ bs) → ∀ l, u.author l ≠ some i)
    (fun _ _ (hl : none = some i) => nomatch hl) ?_ hrun hfirst
  intro bs b u u' _ hu hstep hbs l hl
  have hu' := hu fun pid hmem => hbs pid (List.mem_append_left _ hmem)
  rcases author_of_step hstep hl with hbefore | ⟨pid, -, rfl, -⟩ | ⟨l₀, -, hmoved⟩
  · exact hu' l hbefore
  · exact hbs pid (by simp)
  · exact hu' l₀ hmoved

/-- When a PID file is dropped after any history, nothing changes unless it is an owner, and then
at most what its path names goes. It takes its own files and no other exactly if it names its own
then, which it does if nobody has disturbed them since its first write. -/
theorem drop_takes_named {h : Host} {as : List PidAction} (hrun : (start h).run as = some w)
    (hp : w.file? i = some p) (hdrop : w.step (.drop i) = some w') :
    (p.isOwned = false → w'.host = w.host) ∧
    (∀ l, w'.host.tree.get? l ≠ w.host.tree.get? l →
      p.isOwned = true ∧ w.host.named? p.path = some l) ∧
    (w.TakesOwn w' i ↔ w.NamesOwn i p) ∧
    ∀ before pid after w₁ p₁ way l, as = before ++ .write i pid :: after →
      (start h).run before = some w₁ → w₁.file? i = some p₁ →
      w₁.Undisturbed i pid after p₁.path way l → w.TakesOwn w' i := by
  refine ⟨fun hnot => ?_, fun l hl => ?_, takesOwn_iff hp hdrop, ?_⟩
  · obtain ⟨q, hq, rfl⟩ := Option.map_eq_some_iff.mp hdrop
    obtain rfl : p = q := Option.some.inj (hp.symm.trans hq)
    exact (p.host_drop w.host).trans (by rw [hnot]; rfl)
  · by_contra hnot
    exact hl ((get?_of_drop hp hdrop l).trans (if_neg hnot))
  · rintro before pid after w₁ p₁ way l rfl hbefore hp₁ hundisturbed
    rw [runs.append, hbefore, Option.bind_some] at hrun
    obtain ⟨p', hp', hnames⟩ := hundisturbed.namesOwn hp₁ rfl hrun
    obtain rfl : p = p' := Option.some.inj (hp.symm.trans hp')
    exact (takesOwn_iff hp hdrop).mpr hnames

/-- Two PID files beside each other. -/
def side : List PidAction := [.new "run/a.pid", .new "run/b.pid"]

/-- The second one writes and others make a file before the first one writes again. -/
def busy : List PidAction := [.put ["x"] (.file [1]), .write 1 6, .write 0 7]

/-- What the path of the first one leads through. -/
def lane : FileTree := ⟨[(["run"], .directory), (["run", "a.pid"], .file [])]⟩

/-- Whether the way to the first one's file is there, and the file is its own. -/
def isSpared (w : PidFiles) : Bool :=
  w.host.tree.get? ["run"] = some .directory && w.author ["run", "a.pid"] = some 0 &&
    match w.host.tree.get? ["run", "a.pid"] with
    | some (.file _) => true
    | _ => false

lemma lane_grows (h : w.isSpared = true) :
    lane.Grows w.host.tree ∧ w.author ["run", "a.pid"] = some 0 := by
  simp only [isSpared, Bool.and_eq_true, decide_eq_true_eq] at h
  obtain ⟨⟨hdirectory, hauthor⟩, hfile⟩ := h
  refine ⟨FileTree.grows_of_entries fun entry hentry => ?_, hauthor⟩
  rcases List.mem_cons.mp hentry with rfl | hentry
  · exact ⟨.directory, hdirectory, trivial⟩
  · obtain rfl := List.mem_singleton.mp hentry
    split at hfile
    · exact ⟨.file _, ‹_›, trivial⟩
    · cases hfile

theorem drop_takes_named_neighbours : ∃ w w',
    (start {}).run (side ++ .write 0 5 :: busy) = some w ∧ w.step (.drop 0) = some w' ∧
    w.TakesOwn w' 0 ∧ w'.host.tree.get? ["run", "b.pid"] = some (.file [54]) := by
  have hends : ((start {}).run (side ++ .write 0 5 :: busy)).bind (fun w =>
      (w.step (.drop 0)).map fun w' => (w.file? 0, w'.host.tree.get? ["run", "b.pid"])) =
      some (some ⟨"run/a.pid", true⟩, some (.file [54])) := by decide +kernel
  obtain ⟨w, hrun, hw⟩ := Option.bind_eq_some_iff.mp hends
  obtain ⟨w', hdrop, hget⟩ := Option.map_eq_some_iff.mp hw
  obtain ⟨hp, hother⟩ := Prod.mk.inj hget
  obtain ⟨w₁, hside, hp₁, hcwd⟩ : ∃ w₁, (start {}).run side = some w₁ ∧
      w₁.file? 0 = some ⟨"run/a.pid", false⟩ ∧ w₁.host.cwd = [] := ⟨_, rfl, rfl, rfl⟩
  have hspared : ∀ bs ∈ busy.inits,
      (((start {}).run (side ++ .write 0 5 :: bs)).all isSpared) = true := by decide +kernel
  have hundisturbed : w₁.Undisturbed 0 5 busy "run/a.pid" lane ["run", "a.pid"] := by
    refine ⟨author_of_unwritten hside (by simp [side]), by simp [busy], ?_, ⟨[], rfl⟩, ?_⟩
    · rw [hcwd]
      decide +kernel
    · intro bs u hbs hu
      have hall := hspared bs ((List.mem_inits bs busy).mpr hbs)
      rw [runs.append, hside, Option.bind_some, hu] at hall
      exact lane_grows hall
  exact ⟨w, w', hrun, hdrop, (drop_takes_named hrun hp hdrop).2.2.2 side 5 busy w₁
    ⟨"run/a.pid", false⟩ lane _ rfl hside hp₁ hundisturbed, hother⟩

/-- The file that others put in the place of a PID file goes with the PID file. -/
theorem drop_takes_foreign : ∃ w w', (start {}).run
      [.new "d.pid", .write 0 5, .put ["d.pid"] (.file [57, 57])] = some w ∧
    w.step (.drop 0) = some w' ∧ ¬ w.TakesOwn w' 0 := by
  have hends : ((start {}).run [.new "d.pid", .write 0 5, .put ["d.pid"] (.file [57, 57])]).bind
      (fun w => (w.step (.drop 0)).map fun w' =>
        (w.host.tree.get? ["d.pid"], w.author ["d.pid"], w'.host.tree.get? ["d.pid"])) =
      some (some (.file [57, 57]), none, none) := by decide +kernel
  obtain ⟨w, hrun, hw⟩ := Option.bind_eq_some_iff.mp hends
  obtain ⟨w', hdrop, hget⟩ := Option.map_eq_some_iff.mp hw
  obtain ⟨hstands, hrest⟩ := Prod.mk.inj hget
  obtain ⟨hauthor, hgone⟩ := Prod.mk.inj hrest
  refine ⟨w, w', hrun, hdrop, fun htakes => ?_⟩
  have hforeign : ¬ w.Wrote 0 ["d.pid"] := by
    rintro ⟨-, hwrote⟩
    rw [hauthor] at hwrote
    cases hwrote
  have hstays := htakes.others_stay _ _ hstands hforeign
  rw [hgone] at hstays
  cases hstays

end PidFiles

end Overseer
