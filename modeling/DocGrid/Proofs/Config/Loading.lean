import DocGrid.Config.File
import DocGrid.Proofs.Config.Placeholders
import DocGrid.Proofs.Text.Utf8
import DocGrid.Proofs.Yaml.Values

/-! When a configuration file gives settings or a problem of the configuration, and what else may
come of it: the file is no text, or the reader fails otherwise than on malformed text. This is said
of any reader; the one for YAML fails so on a token that is out of range and on a scalar that has no
value of its kind. -/

namespace DocGrid

namespace TableConfig

/-- The text that a file has with its placeholders filled in. -/
def HasText (env : Environment) (octets : List UInt8) (text : List Char) : Prop :=
  ∃ cs, octets = cs.flatMap String.utf8EncodeChar ∧
    Placeholder.expand env (plainLines cs) = .ok text

/-- The page size is the whole number under its name, or as it is without one. -/
def IsSetIn (c : TableConfig) (settings : Document) : Prop :=
  match Document.get? itemsField settings with
  | some w => Loose.int? w = some (c.defaultItems : Int)
  | none => c = default

/-- The settings stand in a section of their own if there is one. -/
def IsSetBy (c : TableConfig) (v : Value) : Prop :=
  (v = .null ∧ c = default) ∨
    ∃ doc settings, v = .mapping doc ∧ c.IsSetIn settings ∧
      (Document.get? ConfigFile.sectionName doc).getD (.mapping doc) = .mapping settings

theorem int?_of_natural? {w : Value} {n : Nat} (h : natural? w = some n) :
    Loose.int? w = some (n : Int) := by
  unfold natural? at h
  split at h
  · next m hm =>
    split at h
    · next hle =>
      obtain rfl := Option.some.inj h
      rw [hm, Int.toNat_of_nonneg hle]
    · cases h
  · cases h

theorem holds_ofDocument (settings : Document) :
    Result.Holds (fun c => c.IsSetIn settings) (fun e => ∃ names, e = .invalid names)
      (ofDocument settings) := by
  have hread : match Check.optional settings itemsField default.defaultItems natural? with
      | .ok n => IsSetIn ⟨n⟩ settings
      | .faulty _ => True := by
    unfold Check.optional IsSetIn
    cases Document.get? itemsField settings with
    | none => rfl
    | some w =>
      dsimp only
      unfold Check.read
      cases hw : natural? w with
      | none => trivial
      | some n => exact int?_of_natural? hw
  unfold ofDocument
  cases hn : Check.optional settings itemsField default.defaultItems natural? with
  | faulty names =>
    cases unknown settings with
    | ok _ => exact ⟨_, rfl⟩
    | faulty others => exact ⟨_, rfl⟩
  | ok n =>
    rw [hn] at hread
    cases unknown settings with
    | ok _ => exact hread
    | faulty others => exact ⟨_, rfl⟩

theorem holds_ofSettings (v : Value) :
    Result.Holds (fun c => c.IsSetBy v) (fun e => ∃ p, e = .config p) (ofSettings v) := by
  unfold ofSettings
  split
  · exact .inl ⟨rfl, rfl⟩
  · next doc =>
    split
    · next settings hsection =>
      have hdoc := holds_ofDocument settings
      cases h : ofDocument settings with
      | ok c => exact .inr ⟨doc, settings, rfl, hdoc.answer h, hsection⟩
      | error e =>
        obtain ⟨names, rfl⟩ := hdoc.failure h
        exact ⟨.invalid, rfl⟩
    · exact ⟨.sectionNotMapping, rfl⟩
  · exact ⟨.notMapping, rfl⟩

variable {env : Environment} {octets : List UInt8}

theorem HasText.of_encoded {cs text : List Char} (h : HasText env octets text)
    (hcs : octets = cs.flatMap String.utf8EncodeChar) :
    Placeholder.expand env (plainLines cs) = .ok text := by
  obtain ⟨cs', hcs', htext⟩ := h
  have he : some cs = some cs' :=
    (Text.utf8?_eq_some_iff.mpr hcs).symm.trans (Text.utf8?_eq_some_iff.mpr hcs')
  rwa [Option.some.inj he]

theorem HasText.unique {text text' : List Char} (h : HasText env octets text)
    (h' : HasText env octets text') : text = text' := by
  obtain ⟨cs, hcs, htext⟩ := h
  exact Except.ok.inj (htext.symm.trans (h'.of_encoded hcs))

theorem text_of_encoded {cs : List Char} (h : octets = cs.flatMap String.utf8EncodeChar) :
    ConfigFile.text (some octets) = .ok (plainLines cs) := by
  unfold ConfigFile.text
  dsimp only
  rw [Text.utf8?_eq_some_iff.mpr h]

section Reader

variable [MarkupReader]

theorem value_of_encoded {cs : List Char} (h : octets = cs.flatMap String.utf8EncodeChar) :
    ConfigFile.value env (some octets) = Placeholder.expand env (plainLines cs) >>= MarkupReader.read := by
  unfold ConfigFile.value
  rw [text_of_encoded h]
  rfl

theorem value_of_text {text : List Char} (h : HasText env octets text) :
    ConfigFile.value env (some octets) = MarkupReader.read text := by
  obtain ⟨cs, hcs, htext⟩ := h
  rw [value_of_encoded hcs, htext]
  rfl

theorem ofFile_of_not_encoded (h : ∀ cs : List Char, octets ≠ cs.flatMap String.utf8EncodeChar) :
    ofFile env (some octets) = .error .notUtf8 := by
  have htext : ConfigFile.text (some octets) = .error .notUtf8 := by
    unfold ConfigFile.text
    dsimp only
    cases hcs : Text.utf8? octets with
    | none => rfl
    | some cs => exact absurd (Text.utf8?_eq_some_iff.mp hcs) (h cs)
  have hvalue : ConfigFile.value env (some octets) = .error .notUtf8 := by
    unfold ConfigFile.value
    rw [htext]
    rfl
  unfold ofFile
  rw [hvalue]
  rfl

theorem ofFile_of_unset {cs : List Char} {name : String}
    (h : octets = cs.flatMap String.utf8EncodeChar)
    (hname : Placeholder.expand env (plainLines cs) = .error (.config (.unsetVariable name))) :
    ofFile env (some octets) = .error (.config (.unsetVariable name)) := by
  unfold ofFile
  rw [value_of_encoded h, hname]
  rfl

theorem ofFile_of_value {text : List Char} {v : Value} (h : HasText env octets text)
    (hv : MarkupReader.read text = .ok v) : ofFile env (some octets) = ofSettings v := by
  unfold ofFile
  rw [value_of_text h, hv]
  rfl

theorem ofFile_of_markup {text : List Char} {p : MarkupProblem} (h : HasText env octets text)
    (hp : MarkupReader.read text = .error (.markup p)) :
    ofFile env (some octets) = .error (.config .unreadable) := by
  unfold ofFile
  rw [value_of_text h, hp]
  rfl

theorem ofFile_of_failure {text : List Char} {e : Failure} (h : HasText env octets text)
    (he : MarkupReader.read text = .error e) (hp : ∀ p, e ≠ .markup p) :
    ofFile env (some octets) = .error e := by
  unfold ofFile
  rw [value_of_text h, he]
  cases e with
  | markup p => exact absurd rfl (hp p)
  | _ => rfl

/-- A failure of the reader that is reported as a problem of the configuration. -/
def IsReported (e : Failure) : Prop :=
  (∃ p, e = .markup p) ∨ ∃ p, e = .config p

/-- What may come of a file, and when. -/
inductive Loading (env : Environment) (octets : List UInt8) : Result TableConfig → Prop where
  | notEncoded (h : ∀ cs : List Char, octets ≠ cs.flatMap String.utf8EncodeChar) :
      Loading env octets (.error .notUtf8)
  | unset {cs : List Char} {name : String} (h : octets = cs.flatMap String.utf8EncodeChar)
      (hunset : env.lookup name = none)
      (hname : Placeholder.expand env (plainLines cs) = .error (.config (.unsetVariable name))) :
      Loading env octets (.error (.config (.unsetVariable name)))
  | malformed {text : List Char} {p : MarkupProblem} (h : HasText env octets text)
      (hp : MarkupReader.read text = .error (.markup p)) : Loading env octets (.error (.config .unreadable))
  | passed {text : List Char} {p : ConfigProblem} (h : HasText env octets text)
      (hp : MarkupReader.read text = .error (.config p)) : Loading env octets (.error (.config p))
  | stumbles {text : List Char} {e : Failure} (h : HasText env octets text)
      (he : MarkupReader.read text = .error e) (hs : ¬IsReported e) : Loading env octets (.error e)
  | read {text : List Char} {v : Value} {r : Result TableConfig} (h : HasText env octets text)
      (hv : MarkupReader.read text = .ok v) (hr : ofSettings v = r) : Loading env octets r

theorem loading_of_text {text : List Char} (h : HasText env octets text) :
    Loading env octets (ofFile env (some octets)) := by
  cases hread : MarkupReader.read text with
  | ok v =>
    rw [ofFile_of_value h hread]
    exact .read h hread rfl
  | error e =>
    by_cases hs : IsReported e
    · rcases hs with ⟨p, rfl⟩ | ⟨p, rfl⟩
      · rw [ofFile_of_markup h hread]
        exact .malformed h hread
      · rw [ofFile_of_failure h hread (by simp)]
        exact .passed h hread
    · rw [ofFile_of_failure h hread fun p hp => hs (.inl ⟨p, hp⟩)]
      exact .stumbles h hread hs

theorem loading_ofFile (env : Environment) (octets : List UInt8) :
    Loading env octets (ofFile env (some octets)) := by
  by_cases hencoded : ∃ cs : List Char, octets = cs.flatMap String.utf8EncodeChar
  · obtain ⟨cs, hcs⟩ := hencoded
    cases htext : Placeholder.expand env (plainLines cs) with
    | ok text => exact loading_of_text ⟨cs, hcs, htext⟩
    | error e =>
      obtain ⟨name, hfirst, rfl⟩ := Placeholder.expand_eq_error_iff.mp htext
      rw [ofFile_of_unset hcs htext]
      exact .unset hcs hfirst.unset htext
  · have hno := not_exists.mp hencoded
    rw [ofFile_of_not_encoded hno]
    exact .notEncoded hno

/-- The file is a text, which has a value or is malformed once its placeholders are filled in. -/
def Legible (env : Environment) (octets : List UInt8) : Prop :=
  (∃ cs : List Char, octets = cs.flatMap String.utf8EncodeChar) ∧
    ∀ text e, HasText env octets text → MarkupReader.read text = .error e → IsReported e

theorem HasText.legible {text : List Char} (h : HasText env octets text)
    (hread : ∀ e, MarkupReader.read text = .error e → IsReported e) : Legible env octets := by
  refine ⟨h.imp fun _ => And.left, fun text' e h' he => ?_⟩
  rw [h'.unique h] at he
  exact hread e he

namespace Loading

theorem settled_iff {r : Result TableConfig} (h : Loading env octets r) :
    ((∃ c, r = .ok c) ∨ ∃ p, r = .error (.config p)) ↔ Legible env octets := by
  cases h with
  | notEncoded h => simp [Legible, h]
  | unset hcs _ hname =>
    refine iff_of_true (.inr ⟨_, rfl⟩) ⟨⟨_, hcs⟩, fun text e htext _ => ?_⟩
    rw [htext.of_encoded hcs] at hname
    cases hname
  | malformed h hp =>
    refine iff_of_true (.inr ⟨_, rfl⟩) (h.legible fun e he => .inl ?_)
    exact ⟨_, Except.error.inj (he.symm.trans hp)⟩
  | passed h hp =>
    refine iff_of_true (.inr ⟨_, rfl⟩) (h.legible fun e he => .inr ?_)
    exact ⟨_, Except.error.inj (he.symm.trans hp)⟩
  | stumbles h he hs =>
    refine iff_of_false ?_ fun hl => hs (hl.2 _ _ h he)
    rintro (⟨c, hc⟩ | ⟨p, hp⟩)
    · cases hc
    · exact hs (.inr ⟨p, Except.error.inj hp⟩)
  | @read text v r h hv hr =>
    refine iff_of_true ?_ (h.legible fun e he => ?_)
    · cases r with
      | ok c => exact .inl ⟨c, rfl⟩
      | error e =>
        obtain ⟨p, rfl⟩ := (holds_ofSettings v).failure hr
        exact .inr ⟨p, rfl⟩
    · cases hv.symm.trans he

theorem set_by {c : TableConfig} (h : Loading env octets (.ok c)) :
    ∃ text v, HasText env octets text ∧ MarkupReader.read text = .ok v ∧ c.IsSetBy v := by
  cases h with
  | @read text v _ h hv hr => exact ⟨text, v, h, hv, (holds_ofSettings v).answer hr⟩

theorem failure {e : Failure} (h : Loading env octets (.error e)) :
    (∃ p, e = .config p) ∨
    (e = .notUtf8 ∧ ∀ cs : List Char, octets ≠ cs.flatMap String.utf8EncodeChar) ∨
    ∃ text, HasText env octets text ∧ MarkupReader.read text = .error e ∧ ¬IsReported e := by
  cases h with
  | notEncoded h => exact .inr (.inl ⟨rfl, h⟩)
  | unset _ _ _ => exact .inl ⟨_, rfl⟩
  | malformed _ _ => exact .inl ⟨_, rfl⟩
  | passed _ _ => exact .inl ⟨_, rfl⟩
  | stumbles h he hs => exact .inr (.inr ⟨_, h, he, hs⟩)
  | @read _ v _ _ _ hr => exact .inl ((holds_ofSettings v).failure hr)

end Loading

/-- Whatever reads its text, a file gives settings or a problem of the configuration exactly if it is
a text that has a value or is malformed. The settings are those of the value. Whatever else comes of
a file, the file is no text, or it is what the reader fails with. -/
theorem ofFile_answer (env : Environment) (octets : List UInt8) :
    (((∃ c, ofFile env (some octets) = .ok c) ∨
        ∃ p, ofFile env (some octets) = .error (.config p)) ↔ Legible env octets) ∧
    (∀ c, ofFile env (some octets) = .ok c →
      ∃ text v, HasText env octets text ∧ MarkupReader.read text = .ok v ∧ c.IsSetBy v) ∧
    ∀ e, ofFile env (some octets) = .error e →
      (∃ p, e = .config p) ∨
      (e = .notUtf8 ∧ ∀ cs : List Char, octets ≠ cs.flatMap String.utf8EncodeChar) ∨
      ∃ text, HasText env octets text ∧ MarkupReader.read text = .error e ∧ ¬IsReported e := by
  have h := loading_ofFile env octets
  exact ⟨h.settled_iff, fun c hc => (hc ▸ h).set_by, fun e he => (he ▸ h).failure⟩

end Reader

/-- The reader for YAML fails on a token that is out of range, or on a scalar that has no value of
its kind, if it does not find the text malformed. -/
theorem stumbles_of_ofFile {e : Failure} (h : ofFile env (some octets) = .error e) :
    (∃ p, e = .config p) ∨
    (e = .notUtf8 ∧ ∀ cs : List Char, octets ≠ cs.flatMap String.utf8EncodeChar) ∨
    ∃ text, HasText env octets text ∧ Yaml.Stumbles text e := by
  have hloading : Loading env octets (.error e) := h ▸ loading_ofFile env octets
  refine hloading.failure.imp_right (Or.imp_right ?_)
  rintro ⟨text, htext, hread, hs⟩
  rcases Yaml.stumbles_of_read hread with hp | hstumbles
  · exact absurd (.inl hp) hs
  · exact ⟨text, htext, hstumbles⟩

/-- The octet 255 occurs in no text. -/
theorem not_ofFile_config : ¬ ∀ (env : Environment) (octets : List UInt8),
    (∃ c, ofFile env (some octets) = .ok c) ∨
      ∃ p, ofFile env (some octets) = .error (.config p) := by
  intro h
  have hfile : ofFile [] (some [0xFF]) = .error .notUtf8 := rfl
  rcases h [] [0xFF] with ⟨c, hc⟩ | ⟨p, hp⟩
  · cases hfile.symm.trans hc
  · cases hfile.symm.trans hp

end TableConfig

namespace ConfigFile

open Placeholder

theorem value_eq_config_iff {env : Environment} {cs : List Char} {p : ConfigProblem} :
    value env (some (cs.flatMap String.utf8EncodeChar)) = .error (.config p) ↔
      ∃ name, FirstUnset env (pieces (plainLines cs)) name ∧
        p = .unsetVariable (String.ofList name) := by
  rw [TableConfig.value_of_encoded rfl]
  constructor
  · intro h
    rcases Result.error_of_bind h with h | ⟨text, -, h⟩
    · obtain ⟨name, hfirst, hp⟩ := expand_eq_error_iff.mp h
      exact ⟨name, hfirst, Failure.config.inj hp⟩
    · rcases Yaml.stumbles_of_read h with ⟨_, he⟩ | hs
      · cases he
      · exact absurd rfl (hs.ne_config p)
  · rintro ⟨name, hfirst, rfl⟩
    rw [expand_eq_error_iff.mpr ⟨name, hfirst, rfl⟩]
    rfl

/-- What is read is the text of the file, scanned once from left to right, with the values as they
are in place of the placeholders. It is not read at all exactly if a placeholder of the file names a
variable that is not set, of which the first one is reported. -/
theorem value_filled (env : Environment) (cs : List Char) :
    let file : ConfigFile := some (cs.flatMap String.utf8EncodeChar)
    let text := plainLines cs
    file.text = .ok text ∧ (∀ ps, Scan text ps ↔ ps = pieces text) ∧
    (∀ name a b, isName name = true ∧ text = a ++ ((Piece.hole name).written ++ b) ↔
      ∃ before after, pieces text = before ++ .hole name :: after ∧
        before.flatMap Piece.written = a ∧ after.flatMap Piece.written = b) ∧
    ((∀ name, .hole name ∈ pieces text → env.lookup (String.ofList name) ≠ none) →
      ∃ parts, List.Forall₂ (Piece.FilledBy env) (pieces text) parts ∧
        expand env text = .ok parts.flatten ∧ file.value env = Yaml.read parts.flatten) ∧
    ((∃ p, file.value env = .error (.config p)) ↔
      ∃ name, .hole name ∈ pieces text ∧ env.lookup (String.ofList name) = none) ∧
    ∀ p, file.value env = .error (.config p) ↔
      ∃ name, FirstUnset env (pieces text) name ∧ p = .unsetVariable (String.ofList name) := by
  intro file text
  refine ⟨TableConfig.text_of_encoded rfl, fun ps => scan_iff,
    fun name a b => written_at_iff, fun hset => ?_, ?_, fun p => value_eq_config_iff⟩
  · cases hexpand : expand env text with
    | ok out =>
      obtain ⟨parts, hparts, rfl⟩ := expand_eq_ok_iff.mp hexpand
      refine ⟨parts, hparts, rfl, ?_⟩
      rw [TableConfig.value_of_encoded rfl, hexpand]
      rfl
    | error e =>
      obtain ⟨name, hfirst, -⟩ := expand_eq_error_iff.mp hexpand
      obtain ⟨other, hmem, hunset⟩ := exists_firstUnset_iff.mp ⟨name, hfirst⟩
      exact absurd hunset (hset other hmem)
  · rw [← exists_firstUnset_iff]
    constructor
    · rintro ⟨p, h⟩
      obtain ⟨name, hfirst, -⟩ := value_eq_config_iff.mp h
      exact ⟨name, hfirst⟩
    · rintro ⟨name, hfirst⟩
      exact ⟨_, value_eq_config_iff.mpr ⟨name, hfirst, rfl⟩⟩

/-- A value that completes a placeholder: what it makes is not expanded again. -/
theorem value_filled_completed :
    let env : Environment := [("A", "$\x7benv."), ("B", "1")]
    let cs := "$\x7benv.A\x7dB\x7d".toList
    pieces (plainLines cs) = [.hole ['A'], .char 'B', .char '\x7d'] ∧
      value env (some (cs.flatMap String.utf8EncodeChar)) =
        Yaml.read "$\x7benv.B\x7d".toList := by
  intro env cs
  have hpieces : pieces (plainLines cs) = [.hole ['A'], .char 'B', .char '\x7d'] := by
    change pieces ((Piece.hole ['A']).written ++ ['B', '\x7d']) = _
    rw [pieces_hole (by decide), pieces_of_dollar_notMem (by decide)]
    rfl
  have hexpand : expand env (plainLines cs) = .ok "$\x7benv.B\x7d".toList := by
    refine expand_eq_ok_iff.mpr ⟨["$\x7benv.".toList, ['B'], ['\x7d']], ?_, rfl⟩
    rw [hpieces]
    exact .cons (.hole rfl) (.cons (.char _) (.cons (.char _) .nil))
  obtain ⟨-, -, -, hset, -⟩ := value_filled env cs
  obtain ⟨parts, -, hfilled, hvalue⟩ := hset (by simp [hpieces, env])
  exact ⟨hpieces, by rw [hvalue, Except.ok.inj (hexpand.symm.trans hfilled)]⟩

end ConfigFile

end DocGrid
