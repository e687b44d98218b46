import DocGrid.Proofs.Results
import DocGrid.Proofs.Text.Joined
import DocGrid.Store.Sql.Url

/-! The settings that come with the URL of a database. What the caller gives is never overridden.
The words for the driver and for SQLite are looked for in the whole URL, so that user, host or path
may bring in what the scheme does not say. -/

namespace DocGrid

namespace Document

@[simp] theorem get?_filter (test : String → Bool) (doc : Document) (key : String) :
    get? key (doc.filter fun e => test e.1) = if test key then get? key doc else none := by
  induction doc with
  | nil => simp
  | cons e doc ih =>
    by_cases hkey : e.1 = key
    · subst hkey
      by_cases htest : test e.1 = true
      · simp [htest]
      · simp [htest, ih]
    · by_cases htest : test e.1 = true
      · simp [htest, hkey, ih]
      · simp [htest, hkey, ih]

end Document

namespace SqlUrl

open Document (get?)

@[simp] theorem get?_withDefault (s : Document) (e : String × Value) (key : String) :
    get? key (withDefault s e) = (get? key s).or (get? key [e]) := by
  obtain ⟨name, v⟩ := e
  unfold withDefault Document.has
  by_cases hkey : name = key
  · subst hkey
    cases hs : get? name s with
    | none => simp
    | some w => simp [hs]
  · split <;> simp [hkey]

theorem get?_withDefaults (defaults s : Document) (key : String) :
    get? key (defaults.foldl withDefault s) = (get? key s).or (get? key defaults) := by
  induction defaults generalizing s with
  | nil => simp
  | cons e defaults ih =>
    rw [List.foldl_cons, ih, get?_withDefault, Option.or_assoc]
    obtain ⟨name, v⟩ := e
    by_cases hkey : name = key <;> simp [hkey]

/-- A URL in its parts. The scheme in front names a dialect and may name a driver. -/
structure Parts where
  dialect : String
  driver : Option String
  rest : String
  dialect_plain : '+' ∉ dialect.toList ∧ ':' ∉ dialect.toList
  driver_plain : ∀ d ∈ driver, '+' ∉ d.toList ∧ ':' ∉ d.toList

def asyncNames : List String :=
  ["asyncpg", "aiosqlite", "aiomysql"]

namespace Parts

def scheme (u : Parts) : String :=
  match u.driver with
  | some d => u.dialect ++ "+" ++ d
  | none => u.dialect

def text (u : Parts) : String :=
  u.scheme ++ "://" ++ u.rest

/-- The driver starts with a known name, or such a name follows a plus sign after the scheme. -/
def NamesDriver (u : Parts) : Prop :=
  ∃ name ∈ asyncNames, (∃ d ∈ u.driver, name.toList <+: d.toList) ∨
    '+' :: name.toList <:+: u.rest.toList

def MentionsSqlite (u : Parts) : Prop :=
  "sqlite".toList <:+: u.dialect.toList ∨ (∃ d ∈ u.driver, "sqlite".toList <:+: d.toList) ∨
    "sqlite".toList <:+: u.rest.toList

/-- The words that are looked for come from the driver and the dialect alone: nothing follows the
scheme that contains one of them, and neither of the two has one only as a part of its name. -/
structure Regular (u : Parts) : Prop where
  driver : ∀ d ∈ u.driver, ∀ name ∈ asyncNames, name.toList <+: d.toList → d ∈ asyncNames
  dialect : "sqlite".toList <:+: u.dialect.toList → u.dialect = "sqlite"
  sqlite_driver : ∀ d ∈ u.driver, "sqlite".toList <:+: d.toList → u.dialect = "sqlite"
  rest_driver : ∀ name ∈ asyncNames, ¬ '+' :: name.toList <:+: u.rest.toList
  rest_sqlite : ¬"sqlite".toList <:+: u.rest.toList

theorem Regular.namesDriver_iff {u : Parts} (h : u.Regular) :
    u.NamesDriver ↔ ∃ d ∈ u.driver, d ∈ asyncNames := by
  constructor
  · rintro ⟨name, hname, ⟨d, hd, hstart⟩ | hrest⟩
    · exact ⟨d, hd, h.driver d hd name hname hstart⟩
    · exact absurd hrest (h.rest_driver name hname)
  · rintro ⟨d, hd, hname⟩
    exact ⟨d, hname, .inl ⟨d, hd, List.prefix_rfl⟩⟩

theorem Regular.mentionsSqlite_iff {u : Parts} (h : u.Regular) :
    u.MentionsSqlite ↔ u.dialect = "sqlite" := by
  constructor
  · rintro (hdialect | ⟨d, hd, hdriver⟩ | hrest)
    · exact h.dialect hdialect
    · exact h.sqlite_driver d hd hdriver
    · exact absurd hrest h.rest_sqlite
  · intro hdialect
    exact .inl (hdialect ▸ List.infix_rfl)

end Parts

variable {u : Parts} {needle : List Char}

@[simp] theorem mentions_iff {url part : String} :
    mentions url part = true ↔ part.toList <:+: url.toList :=
  Text.occursIn_iff

theorem scheme_of_driver {d : String} (h : u.driver = some d) :
    u.scheme.toList = u.dialect.toList ++ '+' :: d.toList := by
  simp [Parts.scheme, h]

theorem scheme_of_no_driver (h : u.driver = none) : u.scheme = u.dialect := by
  simp [Parts.scheme, h]

/-- What has no colon and no slash inside does not reach out of the scheme. -/
theorem infix_text_iff (hne : needle ≠ []) (hcolon : ':' ∉ needle) (hslash : '/' ∉ needle) :
    needle <:+: u.text.toList ↔ needle <:+: u.scheme.toList ∨ needle <:+: u.rest.toList := by
  have htext : u.text.toList =
      u.scheme.toList ++ ':' :: ([] ++ '/' :: ([] ++ '/' :: u.rest.toList)) := by
    simp [Parts.text]
  rw [htext, Text.infix_append_sep hne hcolon, Text.infix_append_sep hne hslash,
    Text.infix_append_sep hne hslash]
  simp [hne]

theorem cons_infix_append_iff {c : Char} {a b : List Char} (ha : c ∉ a) (hb : c ∉ b) :
    c :: needle <:+: a ++ c :: b ↔ needle <+: b := by
  induction a with
  | nil =>
    -- behind the only sign there is no other one to start with
    have hlater : ¬c :: needle <:+: b := fun h => hb (h.subset List.mem_cons_self)
    rw [List.nil_append, List.infix_cons_iff, List.cons_prefix_cons]
    simp [hlater]
  | cons x a ih =>
    obtain ⟨hx, ha⟩ := List.ne_and_not_mem_of_not_mem_cons ha
    rw [List.cons_append, List.infix_cons_iff, List.cons_prefix_cons, ih ha]
    simp [hx]

theorem plus_infix_scheme_iff :
    '+' :: needle <:+: u.scheme.toList ↔ ∃ d ∈ u.driver, needle <+: d.toList := by
  have hdialect := u.dialect_plain.1
  cases hd : u.driver with
  | none =>
    have hnone : ¬ '+' :: needle <:+: u.dialect.toList :=
      fun h => hdialect (h.subset List.mem_cons_self)
    rw [scheme_of_no_driver hd]
    simpa using hnone
  | some d =>
    rw [scheme_of_driver hd, cons_infix_append_iff hdialect (u.driver_plain d hd).1]
    simp

theorem hasAsyncDriver_iff : hasAsyncDriver u.text = true ↔ u.NamesDriver := by
  have hmarks : Failure.asyncDrivers = asyncNames.map fun name => "+" ++ name := by decide
  have hplain : ∀ name ∈ asyncNames,
      ':' ∉ '+' :: name.toList ∧ '/' ∉ '+' :: name.toList := by decide
  rw [hasAsyncDriver, hmarks, List.any_map, List.any_eq_true]
  refine exists_congr fun name => and_congr_right fun hname => ?_
  have hmark : ("+" ++ name).toList = '+' :: name.toList := by simp
  obtain ⟨hcolon, hslash⟩ := hplain name hname
  rw [Function.comp_apply, mentions_iff, hmark,
    infix_text_iff (List.cons_ne_nil _ _) hcolon hslash, plus_infix_scheme_iff]

theorem isSqlite_iff : isSqlite u.text = true ↔ u.MentionsSqlite := by
  have hne : "sqlite".toList ≠ [] := by decide
  rw [isSqlite, mentions_iff, infix_text_iff hne (by decide) (by decide), Parts.MentionsSqlite,
    ← or_assoc]
  refine or_congr_left ?_
  cases hd : u.driver with
  | none =>
    rw [scheme_of_no_driver hd]
    simp
  | some d =>
    rw [scheme_of_driver hd, Text.infix_append_sep hne (by decide)]
    simp

def ForServer (options s : Document) : Prop :=
  ∀ key, get? key s = (get? key options).or (get? key (("echo", .bool false) :: poolDefaults))

/-- Settings for SQLite: those of the connection are what is given for it, and defaults for the
rest. There are none for a pool. -/
structure ForSqlite (options given s : Document) : Prop where
  connection : ∃ args, get? "connect_args" s = some (.mapping args) ∧
    ∀ key, get? key args = (get? key given).or (get? key connectDefaults)
  others : ∀ key, key ≠ "connect_args" → get? key s =
    if isPoolSetting key then none else (get? key options).or (get? key [("echo", .bool false)])

theorem forServer_defaults (options : Document) : ForServer options
    (poolDefaults.foldl withDefault (withDefault options ("echo", .bool false))) :=
  fun key => get?_withDefaults (("echo", .bool false) :: poolDefaults) options key

theorem forSqlite_defaults (options given : Document) :
    ForSqlite options given (Document.put "connect_args"
      (.mapping (connectDefaults.foldl withDefault given))
      ((withDefault options ("echo", .bool false)).filter fun e => !isPoolSetting e.1)) := by
  refine ⟨⟨_, ?_, get?_withDefaults connectDefaults given⟩, fun key hkey => ?_⟩
  · rw [Document.get?_put, if_pos rfl]
  · rw [Document.get?_put, if_neg (Ne.symm hkey),
      Document.get?_filter (fun key => !isPoolSetting key), get?_withDefault]
    cases isPoolSetting key <;> rfl

def connection (options : Document) : Result Document :=
  ((get? "connect_args" options).getD (.mapping [])).toDocument

theorem fails_connection (options : Document) :
    Result.Fails (fun e => e = .wrongKind ∨ e = .badValue) (connection options) := by
  have hiterate (v : Value) : Result.Fails (fun e => e = .wrongKind ∨ e = .badValue) v.iterate := by
    cases v with
    | list _ | mapping _ | text _ => exact .ok _
    | _ => exact .inl rfl
  have hentry (items : List Value) :
      Result.Fails (fun e => e = .wrongKind ∨ e = .badValue) (Value.entryOf items) := by
    unfold Value.entryOf
    split
    · exact .ok _
    · exact .inl rfl
    · exact .inr rfl
  unfold connection Value.toDocument
  split
  · exact .ok _
  · refine .bind (hiterate _) fun items => .bind ?_ fun _ => .ok _
    cases h : items.mapM fun item => do Value.entryOf (← item.iterate) with
    | ok pairs => exact .ok _
    | error e =>
      obtain ⟨item, -, he⟩ := Result.error_of_mapM h
      exact (Result.Fails.bind (hiterate item) hentry).failure he

variable {options : Document}

theorem settings_of_server (h : u.NamesDriver) (hserver : ¬u.MentionsSqlite) :
    settings u.text options =
      .ok (poolDefaults.foldl withDefault (withDefault options ("echo", .bool false))) := by
  rw [settings, if_pos (hasAsyncDriver_iff.mpr h), if_neg (isSqlite_iff.not.mpr hserver)]

theorem settings_of_sqlite (h : u.NamesDriver) (hsqlite : u.MentionsSqlite) :
    settings u.text options = (connection options).map fun given => Document.put "connect_args"
      (.mapping (connectDefaults.foldl withDefault given))
      ((withDefault options ("echo", .bool false)).filter fun e => !isPoolSetting e.1) := by
  have hgiven : get? "connect_args" (withDefault options ("echo", .bool false)) =
      get? "connect_args" options := by
    rw [get?_withDefault]
    simp
  rw [settings, if_pos (hasAsyncDriver_iff.mpr h), if_pos (isSqlite_iff.mpr hsqlite),
    sqliteSettings, hgiven, connection]
  cases ((get? "connect_args" options).getD (.mapping [])).toDocument <;> rfl

theorem settings_eq_noAsyncDriver_iff :
    settings u.text options = .error (.noAsyncDriver u.text) ↔ ¬u.NamesDriver := by
  constructor
  · intro hrefused h
    by_cases hsqlite : u.MentionsSqlite
    · rw [settings_of_sqlite h hsqlite] at hrefused
      cases hconnection : connection options with
      | ok given =>
        rw [hconnection] at hrefused
        cases hrefused
      | error e =>
        rw [hconnection] at hrefused
        obtain rfl : e = .noAsyncDriver u.text := Except.error.inj hrefused
        rcases (fails_connection options).failure hconnection with he | he <;> cases he
    · rw [settings_of_server h hsqlite] at hrefused
      cases hrefused
  · intro h
    rw [settings, if_neg (hasAsyncDriver_iff.not.mpr h)]

/-- A URL is refused exactly if no driver is named in it. The settings are those for SQLite exactly
if the word occurs in it, and those for a server otherwise; nothing that is given is overridden.
Where the words come from the scheme alone, it is the scheme that decides. -/
theorem settings_of_url (u : Parts) (options : Document) :
    (settings u.text options = .error (.noAsyncDriver u.text) ↔ ¬u.NamesDriver) ∧
    (u.NamesDriver → ¬u.MentionsSqlite →
      ∃ s, settings u.text options = .ok s ∧ ForServer options s) ∧
    (u.NamesDriver → u.MentionsSqlite →
      (∀ given, connection options = .ok given →
        ∃ s, settings u.text options = .ok s ∧ ForSqlite options given s) ∧
      ∀ e, connection options = .error e → settings u.text options = .error e) ∧
    (u.Regular → (u.NamesDriver ↔ ∃ d ∈ u.driver, d ∈ asyncNames) ∧
      (u.MentionsSqlite ↔ u.dialect = "sqlite")) := by
  refine ⟨settings_eq_noAsyncDriver_iff, fun h hserver => ?_,
    fun h hsqlite => ⟨fun given hgiven => ?_, fun e he => ?_⟩,
    fun h => ⟨h.namesDriver_iff, h.mentionsSqlite_iff⟩⟩
  · exact ⟨_, settings_of_server h hserver, forServer_defaults options⟩
  · rw [settings_of_sqlite h hsqlite, hgiven]
    exact ⟨_, rfl, forSqlite_defaults options given⟩
  · rw [settings_of_sqlite h hsqlite, he]
    rfl

def sqliteUser : Parts where
  dialect := "postgresql"
  driver := some "asyncpg"
  rest := "sqlite@localhost/db"
  dialect_plain := by decide
  driver_plain := by decide

/-- A URL without a driver and with a password that contains the name of one. -/
def driverPassword : Parts where
  dialect := "postgresql"
  driver := none
  rest := "user:a+asyncpg@localhost/db"
  dialect_plain := by decide
  driver_plain := by decide

def memory : Parts where
  dialect := "sqlite"
  driver := some "aiosqlite"
  rest := "/:memory:"
  dialect_plain := by decide
  driver_plain := by decide

theorem regular_memory : memory.Regular where
  driver := by
    intro d hd _ _ _
    obtain rfl : "aiosqlite" = d := Option.some.inj hd
    decide
  dialect := fun _ => rfl
  sqlite_driver := fun _ _ _ => rfl
  rest_driver := by decide
  rest_sqlite := by decide

theorem namesDriver_sqliteUser : sqliteUser.NamesDriver :=
  ⟨"asyncpg", by decide, .inl ⟨"asyncpg", rfl, by decide⟩⟩

theorem mentionsSqlite_sqliteUser : sqliteUser.MentionsSqlite :=
  .inr (.inr (by decide))

theorem namesDriver_driverPassword : driverPassword.NamesDriver :=
  ⟨"asyncpg", by decide, .inr (by decide)⟩

theorem not_mentionsSqlite_driverPassword : ¬driverPassword.MentionsSqlite := by
  rw [← isSqlite_iff]
  decide

theorem settings_of_url_sqliteUser :
    let options : Document :=
      [("pool_size", .int 2), ("connect_args", .mapping [("timeout", .int 5)])]
    driverPassword.NamesDriver ∧ ¬driverPassword.MentionsSqlite ∧
      (∃ s, settings driverPassword.text options = .ok s ∧ ForServer options s) ∧
      sqliteUser.text = "postgresql+asyncpg://sqlite@localhost/db" ∧ sqliteUser.NamesDriver ∧
      sqliteUser.MentionsSqlite ∧ connection options = .ok [("timeout", .int 5)] ∧
      (∃ s, settings sqliteUser.text options = .ok s ∧
        ForSqlite options [("timeout", .int 5)] s) ∧
      memory.Regular ∧ (memory.MentionsSqlite ↔ memory.dialect = "sqlite") := by
  intro options
  obtain ⟨-, hserver, -⟩ := settings_of_url driverPassword options
  obtain ⟨-, -, hsqlite, -⟩ := settings_of_url sqliteUser options
  obtain ⟨-, -, -, hregular⟩ := settings_of_url memory options
  have hanswer := hsqlite namesDriver_sqliteUser mentionsSqlite_sqliteUser
  exact ⟨namesDriver_driverPassword, not_mentionsSqlite_driverPassword,
    hserver namesDriver_driverPassword not_mentionsSqlite_driverPassword, by decide,
    namesDriver_sqliteUser, mentionsSqlite_sqliteUser, rfl, hanswer.1 _ rfl, regular_memory,
    (hregular regular_memory).2⟩

/-- Neither the driver nor the kind of the database is decided by the scheme alone. -/
theorem not_settings_by_scheme :
    (¬ ∀ (u : Parts) (options : Document), (∃ s, settings u.text options = .ok s) →
      ∃ d ∈ u.driver, d ∈ asyncNames) ∧
    ¬ ∀ (u : Parts) (options s : Document), settings u.text options = .ok s →
      u.dialect ≠ "sqlite" → ForServer options s := by
  constructor
  · intro hall
    obtain ⟨d, hd, -⟩ := hall driverPassword []
      ⟨_, settings_of_server namesDriver_driverPassword not_mentionsSqlite_driverPassword⟩
    cases hd
  · intro hall
    have hserver := hall sqliteUser [] _
      (settings_of_sqlite namesDriver_sqliteUser mentionsSqlite_sqliteUser) (by decide)
    have hnone := (forSqlite_defaults [] []).others "pool_size" (by decide)
    cases (hserver "pool_size").symm.trans hnone

end SqlUrl

end DocGrid
