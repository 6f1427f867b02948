import Overseer.Config.Document
import Overseer.Proofs.Json.Grammar

/-!
# Documents read back

A configuration is read back from its document as it was, whatever characters its paths are made
of. So two configurations never have one document.
-/

namespace Overseer.Config

open Json (Fault byte encode_quote text_written ok_bind skipBlank_cons written)
open Text (encode)

/-- A path as it stands in a document. -/
def pathDocument : Option String → String
  | none => "null"
  | some p => Json.quote p

/-- The bytes of a name and a value, as they stand in an object. -/
def memberBytes (name value : String) : Bytes :=
  encode (Json.quote name) ++ byte ':' :: encode value

/-- The document after its first brace. -/
def objectBytes (c : Config) : Bytes :=
  memberBytes "is_daemon" (toString c.isDaemon) ++
    byte ',' :: (memberBytes "pid_file" (pathDocument c.pidFile) ++
      byte ',' :: (memberBytes "config_file" (pathDocument c.configFile) ++ [byte '\x7d']))

lemma encode_document (c : Config) : encode c.document = byte '\x7b' :: objectBytes c := by
  have hdaemon : encode "\x7b\"is_daemon\":" =
      byte '\x7b' :: (encode (Json.quote "is_daemon") ++ [byte ':']) := by decide +kernel
  have hpid : encode ",\"pid_file\":" =
      byte ',' :: (encode (Json.quote "pid_file") ++ [byte ':']) := by decide +kernel
  have hconfig : encode ",\"config_file\":" =
      byte ',' :: (encode (Json.quote "config_file") ++ [byte ':']) := by decide +kernel
  have hend : encode "\x7d" = [byte '\x7d'] := by decide
  have hdocument : c.document =
      "\x7b\"is_daemon\":" ++ toString c.isDaemon ++ ",\"pid_file\":" ++ pathDocument c.pidFile ++
        ",\"config_file\":" ++ pathDocument c.configFile ++ "\x7d" := by
    cases c with
    | mk isDaemon pidFile configFile => cases pidFile <;> cases configFile <;> rfl
  rw [hdocument]
  simp only [Text.encode_append, hdaemon, hpid, hconfig, hend, objectBytes, memberBytes,
    List.append_assoc, List.cons_append, List.nil_append]

/-! ## Values -/

section Values

variable {rest : Bytes}

lemma colon_colon : colon (byte ':' :: rest) = .ok rest := rfl

lemma flag_toString (b : Bool) : flag (encode (toString b) ++ rest) = .ok (b, rest) := by
  cases b <;> rfl

lemma path_pathDocument (p : Option String) :
    path (encode (pathDocument p) ++ rest) = .ok (p, rest) := by
  cases p with
  | none => rfl
  | some p =>
    have hquoted : encode (pathDocument (some p)) ++ rest =
        byte '"' :: (written p.toList ++ byte '"' :: rest) := by
      simp [pathDocument, encode_quote]
    rw [hquoted]
    change (Json.text (written p.toList ++ byte '"' :: rest)).map
      (fun x => (some x.1, x.2)) = _
    rw [text_written]
    rfl

end Values

/-! ## Members -/

section Members

variable {n : Nat} {m m' : Members} {name value : String} {rest : Bytes}

/-- Reading the value under the name makes of the members others. -/
def Takes (name value : String) (m m' : Members) : Prop :=
  ∀ rest, member name m (byte ':' :: (encode value ++ rest)) = .ok (m', rest)

lemma takes_isDaemon (b : Bool) (h : m.isDaemon = none) :
    Takes "is_daemon" (toString b) m { m with isDaemon := some b } := by
  intro rest
  simp [member, once, h, colon_colon, flag_toString]

lemma takes_pidFile (p : Option String) (h : m.pidFile = none) :
    Takes "pid_file" (pathDocument p) m { m with pidFile := some p } := by
  intro rest
  simp [member, once, h, colon_colon, path_pathDocument]

lemma takes_configFile (p : Option String) (h : m.configFile = none) :
    Takes "config_file" (pathDocument p) m { m with configFile := some p } := by
  intro rest
  simp [member, once, h, colon_colon, path_pathDocument]

lemma memberBytes_append (name value : String) (rest : Bytes) :
    memberBytes name value ++ rest =
      byte '"' :: (written name.toList ++ byte '"' :: byte ':' :: (encode value ++ rest)) := by
  simp [memberBytes, encode_quote]

lemma named_memberBytes (h : Takes name value m m') (rest : Bytes) :
    named m (memberBytes name value ++ rest) = .ok (m', rest) := by
  rw [memberBytes_append]
  simp only [named, if_true, text_written, ok_bind]
  exact h rest

lemma members_first (h : Takes name value m m') :
    members (n + 1) true m (memberBytes name value ++ rest) = members n false m' rest := by
  have hnamed := named_memberBytes h rest
  rw [memberBytes_append] at hnamed ⊢
  rw [members, skipBlank_cons (by decide)]
  simp only [hnamed, ok_bind, if_true]
  rw [if_neg (by decide)]

lemma members_next (h : Takes name value m m') :
    members (n + 1) false m (byte ',' :: (memberBytes name value ++ rest)) =
      members n false m' rest := by
  have hnamed := named_memberBytes h rest
  rw [memberBytes_append] at hnamed ⊢
  rw [members, skipBlank_cons (by decide)]
  simp only [skipBlank_cons (show Json.isBlank (byte '"') = false by decide), hnamed, ok_bind,
    if_true, Bool.false_eq_true, if_false]
  rw [if_neg (by decide)]

lemma members_end {isFirst : Bool} :
    members (n + 1) isFirst m (byte '\x7d' :: rest) = .ok (m, rest) := rfl

end Members

/-- The three members are read in the order of the document. -/
lemma members_objectBytes (c : Config) (n : Nat) :
    members (n + 4) true {} (objectBytes c) =
      .ok (⟨some c.isDaemon, some c.pidFile, some c.configFile⟩, []) := by
  rw [objectBytes, members_first (takes_isDaemon c.isDaemon rfl),
    members_next (takes_pidFile c.pidFile rfl), members_next (takes_configFile c.configFile rfl),
    members_end]

/-- The document is long enough for its members to be counted out. -/
lemma length_objectBytes (c : Config) : 3 ≤ (objectBytes c).length := by
  simp [objectBytes, memberBytes]
  omega

/-- A configuration is read back from its document, and no other configuration has the document. -/
theorem ofDocument_document :
    (∀ c : Config, ofDocument (encode c.document) = .ok c) ∧ Function.Injective document := by
  have hread (c : Config) : ofDocument (encode c.document) = .ok c := by
    obtain ⟨n, hn⟩ := Nat.exists_eq_add_of_le' (length_objectBytes c)
    rw [encode_document, ofDocument, skipBlank_cons (by decide)]
    simp only [if_true, hn, members_objectBytes, ok_bind]
    rw [if_neg (by decide)]
    rfl
  refine ⟨hread, fun c d hcd => ?_⟩
  have hsame : (.ok c : Except Fault Config) = .ok d := by rw [← hread c, ← hread d, hcd]
  exact Except.ok.inj hsame

end Overseer.Config
