import Overseer.Proofs.PidFile.Grammar
import Overseer.Proofs.System.Ancestors
import Overseer.Proofs.Text.Encoding

/-!
# What a write leaves

A PID file that could be written holds the digits of the number and nothing else, and the number is
read from it. One that could not be written has changed nothing, but that directories above it may
be there now.
-/

namespace Overseer

/-! ### Digits -/

namespace Text

variable {c : Char}

lemma toNat_of_isDigit (h : c.isDigit = true) : 48 ≤ c.toNat ∧ c.toNat ≤ 57 := by
  simp only [Char.isDigit, Bool.and_eq_true, decide_eq_true_eq] at h
  exact ⟨h.1, h.2⟩

lemma isBlank_of_isDigit (h : c.isDigit = true) : isBlank c = false := by
  obtain ⟨hlow, hhigh⟩ := toNat_of_isDigit h
  simp only [isBlank, Bool.or_eq_false_iff, Bool.and_eq_false_iff, decide_eq_false_iff_not]
  omega

lemma isDigit_of_mem_toDigits {n : Nat} (hc : c ∈ Nat.toDigits 10 n) : c.isDigit = true :=
  Nat.isDigit_of_mem_toDigits (by decide) (by decide) hc

lemma encode_toString (n : Nat) :
    encode (toString n) = (Nat.toDigits 10 n).flatMap String.utf8EncodeChar := by
  rw [Nat.toString_eq_ofList_toDigits, encode_ofList]

/-- There is no white space at the ends of the digits of a number. -/
lemma isTrimmed_toDigits (n : Nat) : IsTrimmed (Nat.toDigits 10 n) (Nat.toDigits 10 n) := by
  refine ⟨[], [], by simp, nofun, nofun, fun c hc => ?_, fun c hc => ?_⟩
  · exact isBlank_of_isDigit (isDigit_of_mem_toDigits (List.mem_of_head? hc))
  · exact isBlank_of_isDigit (isDigit_of_mem_toDigits (List.mem_of_getLast? hc))

/-- The digits of a number are a numeral for it. -/
lemma isNumeral_toDigits (n : Nat) : IsNumeral (Nat.toDigits 10 n) n := by
  refine ⟨_, .inl rfl, Nat.toDigits_ne_nil, fun c => isDigit_of_mem_toDigits, ?_⟩
  have hdigits := Nat.ofDigitChars_ten_toDigits (n := n)
  rw [Nat.ofDigitChars_eq_foldl] at hdigits
  simpa [spelled_eq_goOn, goOn, Nat.mul_comm] using hdigits

end Text

namespace PidFile

variable {p : PidFile} {path : String} {pid : Nat} {h : Host}

/-- The decimal digits of a number, a byte each. -/
def digits (n : Nat) : Bytes := (Nat.toDigits 10 n).map fun c => UInt8.ofNat c.toNat

lemma content_eq_digits (n : Nat) : content n = digits n := by
  have hbytes (c : Char) (hc : c ∈ Nat.toDigits 10 n) :
      String.utf8EncodeChar c = [UInt8.ofNat c.toNat] := by
    obtain ⟨-, hhigh⟩ := Text.toNat_of_isDigit (Text.isDigit_of_mem_toDigits hc)
    exact Text.utf8EncodeChar_one (by omega)
  rw [content, Text.encode_toString, digits, List.map_eq_flatMap, List.flatMap_congr hbytes]

lemma isPidText_digits (n : Nat) : IsPidText (digits n) n := by
  rw [← content_eq_digits]
  exact ⟨_, _, Text.encode_toString n, Text.isTrimmed_toDigits n, Text.isNumeral_toDigits n⟩

/-! ### Making the file -/

/-- Only directories above the path are made on the way. -/
lemma builds_above (h : Host) (path : String) :
    h.Builds (h.makeDirectories ((Path.parent? path).getD "")).2 (Path.IsAbove · path) := by
  cases habove : Path.parent? path with
  | none => exact .refl h _
  | some above =>
    refine (h.builds_makeDirectories above).mono ?_
    rintro q (rfl | hq)
    · exact .parent habove
    · exact .higher habove hq

lemma create_of_ok {h' : Host} (hcreate : create path pid h = (.ok (), h')) :
    (h.makeDirectories ((Path.parent? path).getD "")).2.write path (content pid) = .ok h' := by
  unfold create at hcreate
  dsimp only at hcreate
  split at hcreate
  · cases hcreate
  · rename_i h₁ habove
    rw [habove]
    split at hcreate
    · cases hcreate
    · cases hcreate
      assumption

lemma create_of_error {h' : Host} {e : Failure} (hcreate : create path pid h = (.error e, h')) :
    h' = (h.makeDirectories ((Path.parent? path).getD "")).2 := by
  unfold create at hcreate
  dsimp only at hcreate
  split at hcreate
  · rename_i habove
    cases hcreate
    rw [habove]
  · rename_i habove
    split at hcreate
    · cases hcreate
      rw [habove]
    · cases hcreate

/-- The file is there with the digits of the number alone, and the number is read from it. Beside
it there are new directories above it at most. -/
structure IsWritten (p : PidFile) (pid : Nat) (h : Host) (d : Done) : Prop where
  file : d.file = { p with isOwned := true }
  holds : d.host.read p.path = .ok (digits pid)
  exists_path : d.file.pathExists d.host = true
  reads : d.file.read d.host = .ok (some pid)
  rest : ∃ l, d.host.find p.path = .ok (l, .file (digits pid)) ∧
    (∀ e, h.tree.get? l = some e → ∃ old, e = .file old) ∧
    ∀ l' ≠ l, d.host.tree.get? l' = h.tree.get? l' ∨
      h.Adds d.host (Path.IsAbove · p.path) l'

/-- The PID file is what it was, and all that has changed is that there are new directories above
it. -/
structure IsHarmless (p : PidFile) (h : Host) (d : Done) : Prop where
  file : d.file = p
  cwd : d.host.cwd = h.cwd
  rest : ∀ l, d.host.tree.get? l = h.tree.get? l ∨ h.Adds d.host (Path.IsAbove · p.path) l

/-- A write that succeeds leaves the digits of the number and nothing else, and one that fails does
no harm. -/
theorem write_exact (p : PidFile) (pid : UInt32) (h : Host) :
    ((p.write pid.toNat h).result = .ok () → p.IsWritten pid.toNat h (p.write pid.toNat h)) ∧
    ∀ e, (p.write pid.toNat h).result = .error e → p.IsHarmless h (p.write pid.toNat h) := by
  have habove := builds_above h p.path
  unfold write
  split
  · rename_i e h' hcreate
    obtain rfl := create_of_error hcreate
    exact ⟨nofun, fun _ _ => ⟨rfl, habove.grows.cwd, habove.rest⟩⟩
  · rename_i h' hcreate
    refine ⟨fun _ => ?_, nofun⟩
    have hwrite := create_of_ok hcreate
    have hgrows := Host.grows_write hwrite
    rw [content_eq_digits] at hwrite
    obtain ⟨l, hl, htree, hfind⟩ := Host.find_of_write hwrite
    have hread : h'.read p.path = .ok (digits pid.toNat) := by rw [Host.read, hfind]
    have hput : h'.tree.get? l = some (.file (digits pid.toNat)) := by
      rw [htree, FileTree.get?_put_self _ _ hl]
    refine ⟨rfl, hread, ?_, ?_, l, hfind, fun e he => ?_, fun l' hl' => ?_⟩
    · rw [pathExists, Host.pathExists, hfind]
      rfl
    · obtain ⟨text, hdecode, hnumeral⟩ := isPidText_iff.mp (isPidText_digits pid.toNat)
      exact read_eq_some.mpr ⟨⟨_, text, hread, hdecode, hnumeral⟩, pid.toNat_lt⟩
    · obtain ⟨e', he', hmatches⟩ := (habove.grows.trans hgrows).tree l e he
      obtain rfl := Option.some.inj (hput.symm.trans he')
      cases e with
      | file old => exact ⟨old, rfl⟩
      | directory | link => exact hmatches.elim
    · have hsame : h'.tree.get? l' =
          (h.makeDirectories ((Path.parent? p.path).getD "")).2.tree.get? l' := by
        rw [htree, FileTree.get?_put_of_ne _ _ hl']
      rcases habove.rest l' with hrest | hadds
      · exact .inl (hsame.trans hrest)
      · exact .inr (hadds.of_grows hgrows hsame)

/-- A link to a file that holds more than a number. -/
def linked : Host := { tree := ⟨[(["a"], .link "b"), (["b"], .file (Text.encode "4294967296"))]⟩ }

/-- The number goes to the file behind the link, and a path that ends above itself leaves new
directories. -/
theorem write_exact_linked :
    IsWritten ⟨"a", false⟩ 7 linked (write ⟨"a", false⟩ 7 linked) ∧
    IsHarmless ⟨"d/e/..", true⟩ linked (write ⟨"d/e/..", true⟩ 7 linked) ∧
    (write ⟨"d/e/..", true⟩ 7 linked).host.tree.get? ["d", "e"] = some .directory := by
  have hfails : (write ⟨"d/e/..", true⟩ 7 linked).result =
      .error (.pidFileCreation "d/e/.." "Is a directory (os error 21)") := by rfl
  exact ⟨(write_exact ⟨"a", false⟩ 7 linked).1 (by rfl),
    (write_exact ⟨"d/e/..", true⟩ 7 linked).2 _ hfails, by rfl⟩

end PidFile

end Overseer
