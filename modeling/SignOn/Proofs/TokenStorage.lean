import Mathlib.Logic.Function.Basic
import SignOn.Proofs.Json.Records
import SignOn.Proofs.Retries
import SignOn.Proofs.Traces
import SignOn.Proofs.Worlds
import SignOn.Provider.Token

/-! # Tokens in the storage of a page

A login at an endpoint writes its record as a JSON text, puts that text as a literal into a script, and the
page runs the script.  What comes back from the page is decoded once.

* **Literals.**  `Json.IsLiteral` says that a text stands for a string and ends where it should, whatever
  follows it; `Json.isLiteral_quote` that a quoted string is such a text.
* **Records.**  `TokenRecord.decode_compact`: the text of a record is decoded to that record.
* **Scripts.**  `StorageCall.IsScript` gives the three calls to a storage their meaning, and
  `StorageCall.ofScript?` finds the call in a script (`ofScript?_of_isScript`).
* **Pages.**  `PageBehaviour.Keeps` holds of pages that carry such scripts out.  On them a record that has been
  stored is found again (`Provider.run_storedRecord`), and `Provider.token_storage` follows it from the login
  to the logout. -/

namespace SignOn

open Text (Symbol symbols)

/-! ### Literals -/

namespace Json

/-- The string literal at the front of a text, and what follows it. -/
def literal? : List Symbol → Option (String × List Symbol)
  | some '"' :: ss =>
    match readBody {} ss with
    | (.ok s, some rest) => some (s, rest)
    | _ => none
  | _ => none

/-- The text is a literal of the string: it is decoded to the string, and in front of anything else it is read
as the string and ends where it ends by itself. -/
structure IsLiteral (t s : String) : Prop where
  decodes : decode text t = .ok s
  ends : ∀ rest, literal? (symbols t ++ rest) = some (s, rest)

/-- No character of a string ends its literal. -/
theorem isLiteral_quote (s : String) : IsLiteral (quote s) s where
  decodes := by
    have hread : readSymbols ((quoteChars s).map some) = ⟨.string s, none⟩ :=
      readSymbols_spells (v := .string s) trivial rfl
    rw [decode, readText, quote, symbols_ofList, hread]
    rfl
  ends rest := by
    have hsymbols : symbols (quote s) ++ rest =
        some '"' :: ((s.toList.flatMap quoteChar).map some ++ some '"' :: rest) := by
      rw [quote, symbols_ofList, quoteChars]
      simp
    rw [hsymbols, literal?, readBody_quoted]

end Json

/-! ### Texts of records -/

/-- An integer of 64 bits with a sign. -/
def IsInt64 (i : Int) : Prop :=
  -0x8000000000000000 ≤ i ∧ i ≤ 0x7FFFFFFFFFFFFFFF

instance (i : Int) : Decidable (IsInt64 i) :=
  inferInstanceAs (Decidable (_ ∧ _))

namespace TokenRecord

theorem reads_toJson {r : TokenRecord} (h : IsInt64 r.timestamp) : Json.Reads decoder r.toJson r :=
  Json.reads_record (by decide) <|
    .required (Json.reads_text r.token) <|
    .required (Json.reads_text r.headerName) <|
    .required (Json.reads_text r.headerPrefix) <|
    .required (Json.reads_integer h) .nil

/-- The text of a record is decoded to that record. -/
theorem decode_compact {r : TokenRecord} (h : IsInt64 r.timestamp) :
    Json.decode decoder (Json.compact r.toJson) = .ok r := by
  have hinteger : (Number.int r.timestamp).IsInteger := ⟨h.1, Int.lt_of_le_of_lt h.2 (by decide)⟩
  have hnumbers : r.toJson.NumbersIn Number.ReadsBack := ⟨trivial, trivial, trivial, hinteger.readsBack, trivial⟩
  have hdepth : r.toJson.depth = 1 := rfl
  have hread : Json.readText (Json.compact r.toJson) = ⟨r.toJson.draft, none⟩ :=
    Json.readText_spells hnumbers (Json.spells_compactChars r.toJson)
  have hdecode := reads_toJson h ⟨trivial, trivial, trivial, hinteger, trivial⟩ Json.maxDepth (by rw [hdepth]; decide)
  rw [Json.decode, hread]
  exact Json.decodeReading_eq_ok_iff.mpr ⟨_, rfl, hdecode⟩

end TokenRecord

/-! ### Scripts -/

/-- A call to the storage of a page. -/
inductive StorageCall where
  | set (key value : String)
  | get (key : String)
  | remove (key : String)
deriving DecidableEq, Repr

namespace StorageCall

/-- The script makes the call.  Its key and its value stand in it as literals. -/
inductive IsScript : StorageCall → String → Prop where
  | set {K V key value : String} (hkey : Json.IsLiteral K key) (hvalue : Json.IsLiteral V value) :
      IsScript (.set key value) ("window.localStorage.setItem(" ++ K ++ ", " ++ V ++ ")")
  | get {K key : String} (hkey : Json.IsLiteral K key) :
      IsScript (.get key) ("window.localStorage.getItem(" ++ K ++ ")")
  | remove {K key : String} (hkey : Json.IsLiteral K key) :
      IsScript (.remove key) ("window.localStorage.removeItem(" ++ K ++ ")")

/-- What follows some letters at the front of a text. -/
def after? : List Char → List Symbol → Option (List Symbol)
  | [], ss => some ss
  | _ :: _, [] => none
  | c :: cs, s :: ss => if s = some c then after? cs ss else none

/-- The key at the front of a text, if the call is closed behind it. -/
def key? (ss : List Symbol) : Option String := do
  let (key, ss) ← Json.literal? ss
  if ss = [some ')'] then some key else none

/-- The key and the value at the front of a text, if the call is closed behind them. -/
def item? (ss : List Symbol) : Option (String × String) := do
  let (key, ss) ← Json.literal? ss
  let ss ← after? [',', ' '] ss
  let (value, ss) ← Json.literal? ss
  if ss = [some ')'] then some (key, value) else none

/-- The call that a script makes. -/
def ofScript? (script : String) : Option StorageCall :=
  (after? "window.localStorage.".toList (symbols script)).bind fun ss =>
    (((after? "setItem(".toList ss).bind item?).map fun item => .set item.1 item.2) <|>
      ((after? "getItem(".toList ss).bind key?).map .get <|>
      ((after? "removeItem(".toList ss).bind key?).map .remove

theorem after?_append (word : List Char) (ss : List Symbol) : after? word (word.map some ++ ss) = some ss := by
  induction word with
  | nil => rfl
  | cons c word ih =>
      rw [List.map_cons, List.cons_append, after?, if_pos rfl]
      exact ih

theorem key?_of_isLiteral {K key : String} (h : Json.IsLiteral K key) :
    key? (symbols K ++ [some ')']) = some key := by
  unfold key?
  rw [h.ends]
  rfl

theorem item?_of_isLiteral {K V key value : String} (hkey : Json.IsLiteral K key)
    (hvalue : Json.IsLiteral V value) :
    item? (symbols K ++ ([',', ' '].map some ++ (symbols V ++ [some ')']))) = some (key, value) := by
  unfold item?
  rw [hkey.ends]
  simp only [Option.bind_eq_bind, Option.bind_some, after?_append, hvalue.ends]
  rfl

/-- The call is found in every script that makes it. -/
theorem ofScript?_of_isScript {call : StorageCall} {script : String} (h : call.IsScript script) :
    ofScript? script = some call := by
  cases h with
  | @set K V key value hkey hvalue =>
      have hscript : symbols ("window.localStorage.setItem(" ++ K ++ ", " ++ V ++ ")") =
          "window.localStorage.".toList.map some ++ ("setItem(".toList.map some ++
            (symbols K ++ ([',', ' '].map some ++ (symbols V ++ [some ')'])))) := by
        simp [symbols]
      rw [ofScript?, hscript, after?_append, Option.bind_some, after?_append, Option.bind_some,
        item?_of_isLiteral hkey hvalue]
      rfl
  | @get K key hkey =>
      have hscript : symbols ("window.localStorage.getItem(" ++ K ++ ")") =
          "window.localStorage.".toList.map some ++ ("getItem(".toList.map some ++ (symbols K ++ [some ')'])) := by
        simp [symbols]
      have hset : after? "setItem(".toList ("getItem(".toList.map some ++ (symbols K ++ [some ')'])) = none := rfl
      rw [ofScript?, hscript, after?_append, Option.bind_some, hset, after?_append, Option.bind_some,
        key?_of_isLiteral hkey]
      rfl
  | @remove K key hkey =>
      have hscript : symbols ("window.localStorage.removeItem(" ++ K ++ ")") =
          "window.localStorage.".toList.map some ++ ("removeItem(".toList.map some ++
            (symbols K ++ [some ')'])) := by
        simp [symbols]
      have hset : after? "setItem(".toList ("removeItem(".toList.map some ++ (symbols K ++ [some ')'])) = none := rfl
      have hget : after? "getItem(".toList ("removeItem(".toList.map some ++ (symbols K ++ [some ')'])) = none := rfl
      rw [ofScript?, hscript, after?_append, Option.bind_some, hset, hget, after?_append, Option.bind_some,
        key?_of_isLiteral hkey]
      rfl

end StorageCall

/-! ### Pages -/

variable {σ : Type}

/-- The page carries out the calls to its storage; `items` tells what it has stored. -/
structure PageBehaviour.Keeps (b : PageBehaviour σ) (items : σ → String → Option String) : Prop where
  set : ∀ {script key value}, (StorageCall.set key value).IsScript script → ∀ page now x,
    (b.respond (.evaluate script) page now).outcome = .ok x →
      items (b.respond (.evaluate script) page now).page = Function.update (items page) key (some value)
  get : ∀ {script key}, (StorageCall.get key).IsScript script → ∀ page now,
    (b.respond (.evaluate script) page now).outcome = .ok ((items page key).elim .null .string) ∧
      items (b.respond (.evaluate script) page now).page = items page
  remove : ∀ {script key}, (StorageCall.remove key).IsScript script → ∀ page now x,
    (b.respond (.evaluate script) page now).outcome = .ok x →
      items (b.respond (.evaluate script) page now).page = Function.update (items page) key none

namespace Provider

variable {b : PageBehaviour σ} {items : σ → String → Option String} {s : TokenSettings}

theorem isScript_storeScript (s : TokenSettings) (r : TokenRecord) :
    (StorageCall.set s.storageKey (Json.compact r.toJson)).IsScript (storeScript s r) :=
  .set (Json.isLiteral_quote _) (Json.isLiteral_quote _)

theorem isScript_readScript (s : TokenSettings) : (StorageCall.get s.storageKey).IsScript (readScript s) :=
  .get (Json.isLiteral_quote _)

theorem isScript_removeScript (s : TokenSettings) :
    (StorageCall.remove s.storageKey).IsScript (removeScript s) :=
  .remove (Json.isLiteral_quote _)

/-- What is found in the storage is the record of the text that is kept under the key. -/
theorem run_storedRecord (hb : b.Keeps items) (s : TokenSettings) (v : World σ) :
    ((storedRecord s).run b v).1 =
      (items v.page s.storageKey).bind fun raw => (Json.decode TokenRecord.decoder raw).toOption := by
  obtain ⟨hget, -⟩ := hb.get (isScript_readScript s) v.page v.now
  unfold storedRecord
  rw [Plan.bind_eq, Plan.run_page, hget]
  cases items v.page s.storageKey with
  | none => rfl
  | some raw => rfl

theorem run_isSessionValid_token (s : TokenSettings) (role : String) (retry : RetryPolicy) (logger : Logger)
    (v : World σ) :
    ((token s role retry logger).isSessionValid.run b v).1 = ((storedRecord s).run b v).1.isSome := by
  change (((storedRecord s).bind fun r => .done r.isSome).run b v).1 = _
  rw [Plan.run_bind]
  rfl

theorem run_tokenAttempt_ok {role : String} {logger : Logger} {c : Credentials} {w w' : World σ} {a : SignedOn}
    (h : (tokenAttempt s role logger c).run.run b w = (.ok a, w')) :
    ∃ (v : World σ) (r : TokenRecord) (x : Json), w.wall ≤ v.wall ∧ v.wall ≤ w'.wall ∧
      r.headerName = s.headerName ∧ r.headerPrefix = s.headerPrefix ∧ r.timestamp = v.wall ∧
      (b.respond (.evaluate (storeScript s r)) v.page v.now).outcome = .ok x ∧
      w'.page = (b.respond (.evaluate (storeScript s r)) v.page v.now).page ∧
      w'.calls = (v.now, .evaluate (storeScript s r)) :: v.calls := by
  unfold tokenAttempt at h
  obtain ⟨start, w₁, hclock, h⟩ := Attempt.run_bind_eq_ok h
  cases hclock
  obtain ⟨token, v, htoken, h⟩ := Attempt.run_bind_eq_ok h
  obtain ⟨timestamp, v₁, hwall, h⟩ := Attempt.run_bind_eq_ok h
  cases hwall
  obtain ⟨x, v₂, hstore, h⟩ := Attempt.run_bind_eq_ok h
  obtain ⟨hx, rfl⟩ := Attempt.run_page_eq_ok hstore
  have hbefore := Plan.wall_le_run b (requestToken s role c).run (w.step b .clock).after
  rw [htoken] at hbefore
  have hafter := (World.Frozen.refl v).step b (.page (.evaluate (storeScript s
    ⟨token, s.headerName, s.headerPrefix, v.wall⟩))) |>.1.wall_le (World.now_le_step b _ v).1
  cases h
  exact ⟨v, ⟨token, s.headerName, s.headerPrefix, v.wall⟩, x, hbefore, hafter, rfl, rfl, rfl, hx, rfl, rfl⟩

end Provider

theorem Series.run_withRetry_ok {α : Type} {b : PageBehaviour σ} (s : Series α) {w w' : World σ} {a : α}
    (h : (withRetry s.policy s.role s.logger s.attempt).run.run b w = (.ok a, w')) :
    ∃ k, (s.attempt k).run.run b (s.start b w k) = (.ok a, w') := by
  rw [Series.run_withRetry] at h
  cases houtcome : s.outcome b w (s.last b w) with
  | ok a' =>
      rw [houtcome] at h
      cases h
      exact ⟨_, Prod.ext houtcome rfl⟩
  | error e =>
      rw [houtcome] at h
      have hfails := congrArg Prod.fst h
      rw [Series.run_conclude_error] at hfails
      cases hfails

theorem Series.wall_le_start {α : Type} {b : PageBehaviour σ} (s : Series α) (w : World σ) (k : Nat) :
    w.wall ≤ (s.start b w k).wall := by
  induction k with
  | zero => exact Int.le_refl _
  | succ k ih =>
      rw [Series.start_succ]
      calc w.wall ≤ (s.start b w k).wall := ih
        _ ≤ (s.behind b w k).wall := Plan.wall_le_run b _ _
        _ ≤ _ := Plan.wall_le_run b _ _

/-- **Tokens survive the way into the storage and back.**  The scripts that store, read and remove the record
of an endpoint hold one and the same literal of its key, and the first one a literal of the text of the record:
no character of the key or of the record ends a literal.  A record with a time stamp of 64 bits is decoded from
its text.  So on every page that carries such scripts out: behind a login that succeeds the record of its last
call is found, and the session is valid; behind a logout that succeeds nothing is found, and the session is not
valid. -/
theorem Provider.token_storage (s : TokenSettings) :
    (∃ K, Json.IsLiteral K s.storageKey ∧
      readScript s = "window.localStorage.getItem(" ++ K ++ ")" ∧
      removeScript s = "window.localStorage.removeItem(" ++ K ++ ")" ∧
      ∀ r : TokenRecord, ∃ V, Json.IsLiteral V (Json.compact r.toJson) ∧
        storeScript s r = "window.localStorage.setItem(" ++ K ++ ", " ++ V ++ ")" ∧
        (IsInt64 r.timestamp → Json.decode TokenRecord.decoder (Json.compact r.toJson) = .ok r)) ∧
    ∀ {σ : Type} (b : PageBehaviour σ) (items : σ → String → Option String), b.Keeps items →
      ∀ (role : String) (retry : RetryPolicy) (logger : Logger) (w w' : World σ),
        let p := token s role retry logger
        (∀ c a, (p.login c).run.run b w = (.ok a, w') → IsInt64 w.wall → IsInt64 w'.wall →
          ∃ r : TokenRecord, r.headerName = s.headerName ∧ r.headerPrefix = s.headerPrefix ∧
            w.wall ≤ r.timestamp ∧ r.timestamp ≤ w'.wall ∧
            w'.calls.head?.map Prod.snd = some (.evaluate (storeScript s r)) ∧
            ∀ v : World σ, items v.page = items w'.page →
              ((storedRecord s).run b v).1 = some r ∧ (p.isSessionValid.run b v).1 = true) ∧
        (p.logout.run.run b w = (.ok (), w') →
          ∀ v : World σ, items v.page = items w'.page →
            ((storedRecord s).run b v).1 = none ∧ (p.isSessionValid.run b v).1 = false) := by
  constructor
  · refine ⟨storageKey s, Json.isLiteral_quote _, rfl, rfl, fun r => ?_⟩
    exact ⟨_, Json.isLiteral_quote _, rfl, TokenRecord.decode_compact⟩
  · intro σ b items hb role retry logger w w' p
    constructor
    · intro c a hlogin hlow hhigh
      let series : Series SignedOn := ⟨retry, role, logger, fun _ => tokenAttempt s role logger c⟩
      obtain ⟨k, hattempt⟩ := series.run_withRetry_ok hlogin
      obtain ⟨u, r, x, hbefore, hafter, hname, hprefix, htime, hx, hpage, hcalls⟩ := run_tokenAttempt_ok hattempt
      rw [← htime] at hbefore hafter
      have hearlier : w.wall ≤ r.timestamp := Int.le_trans (series.wall_le_start w k) hbefore
      have hint : IsInt64 r.timestamp := ⟨Int.le_trans hlow.1 hearlier, Int.le_trans hafter hhigh.2⟩
      refine ⟨r, hname, hprefix, hearlier, hafter, by rw [hcalls]; rfl, fun v hv => ?_⟩
      · have hkept : items v.page s.storageKey = some (Json.compact r.toJson) := by
          rw [hv, hpage, hb.set (isScript_storeScript s r) _ _ _ hx, Function.update_self]
        have hstored : ((storedRecord s).run b v).1 = some r := by
          rw [run_storedRecord hb, hkept, Option.bind_some, TokenRecord.decode_compact hint]
          rfl
        exact ⟨hstored, by rw [run_isSessionValid_token, hstored]; rfl⟩
    · intro hlogout v hv
      obtain ⟨x, u, hremove, hend⟩ := Attempt.run_bind_eq_ok hlogout
      cases hend
      obtain ⟨hx, rfl⟩ := Attempt.run_page_eq_ok hremove
      have hkept : items v.page s.storageKey = none := by
        rw [hv]
        change items (b.respond (.evaluate (removeScript s)) w.page w.now).page _ = _
        rw [hb.remove (isScript_removeScript s) _ _ _ hx, Function.update_self]
      have hstored : ((storedRecord s).run b v).1 = none := by
        rw [run_storedRecord hb, hkept]
        rfl
      exact ⟨hstored, by rw [run_isSessionValid_token, hstored]; rfl⟩

/-- A page with a storage that carries out nothing but calls to it. -/
def lockerPage : PageBehaviour (String → Option String) where
  url _ _ := "https://app.example/home"
  respond call items _ :=
    { duration := 1
      outcome := match call with
        | .goto .. | .waitForUrl .. | .waitForSelector .. | .waitForLoadState .. | .fill .. | .click _
        | .reload _ | .clearCookies => .ok ()
        | .isVisible _ => .ok false
        | .inputValue _ => .ok ""
        | .textContent _ => .ok none
        | .evaluate script =>
          match StorageCall.ofScript? script with
          | some (.get key) => .ok ((items key).elim .null .string)
          | some _ => .ok .null
          | none => .error (.other "no call to the storage")
        | .storageState => .ok {}
      page := match call with
        | .evaluate script =>
          match StorageCall.ofScript? script with
          | some (.set key value) => Function.update items key (some value)
          | some (.remove key) => Function.update items key none
          | _ => items
        | _ => items
      abandoned := fun _ => items }

theorem keeps_lockerPage : lockerPage.Keeps id where
  set h items _ x _ := by simp only [lockerPage, StorageCall.ofScript?_of_isScript h, id]
  get h items _ := by simp only [lockerPage, StorageCall.ofScript?_of_isScript h, id, and_self]
  remove h items _ x _ := by simp only [lockerPage, StorageCall.ofScript?_of_isScript h, id]

/-- An endpoint whose record stands under a key with a quotation mark and a backslash. -/
def quirky : TokenSettings :=
  { endpoint := "http://a", headerName := "H", headerPrefix := "", storageKey := "\"\\" }

/-- A world in which the endpoint gives out a token with a quotation mark, a backslash and a line end. -/
def quirkyWorld : World (String → Option String) :=
  { page := fun _ => none
    wallStopped := true
    server := [.answer 200 "\x7b\"access_token\":\"\\\"\\\\\\n✓\"\x7d"] }

def quirkyLogin : Except AuthError SignedOn × World (String → Option String) :=
  ((Provider.token quirky "admin" {} .standard).login ⟨"ada", "secret"⟩).run.run lockerPage quirkyWorld

def quirkyLogout : Except AuthError Unit × World (String → Option String) :=
  (Provider.token quirky "admin" {} .standard).logout.run.run lockerPage quirkyLogin.2

/-- The record is found behind the login, and is gone behind the logout. -/
theorem Provider.token_storage_quirky :
    quirkyLogin.1 = .ok ⟨"https://app.example/home", 1⟩ ∧
      (∃ r, ((storedRecord quirky).run lockerPage quirkyLogin.2).1 = some r) ∧
      ((token quirky "admin" {} .standard).isSessionValid.run lockerPage quirkyLogin.2).1 = true ∧
      quirkyLogout.1 = .ok () ∧
      ((token quirky "admin" {} .standard).isSessionValid.run lockerPage quirkyLogout.2).1 = false := by
  have hlogin : quirkyLogin.1 = .ok ⟨"https://app.example/home", 1⟩ := by decide +kernel
  have hlogout : quirkyLogout.1 = .ok () := by decide +kernel
  have hlow : IsInt64 quirkyWorld.wall := by decide
  have hhigh : IsInt64 quirkyLogin.2.wall := by
    obtain ⟨-, hepoch, hstopped⟩ : World.Frozen quirkyWorld quirkyLogin.2 := Plan.frozen_run lockerPage _ _
    rw [World.wall, hepoch, hstopped]
    decide
  obtain ⟨-, hpages⟩ := token_storage quirky
  obtain ⟨hbehind, -⟩ :=
    hpages lockerPage id keeps_lockerPage "admin" {} .standard quirkyWorld quirkyLogin.2
  obtain ⟨-, hgone⟩ := hpages lockerPage id keeps_lockerPage "admin" {} .standard quirkyLogin.2 quirkyLogout.2
  have hran : quirkyLogin = (.ok ⟨"https://app.example/home", 1⟩, quirkyLogin.2) := by
    rw [← hlogin, Prod.eta]
  have hleft : quirkyLogout = (.ok (), quirkyLogout.2) := by rw [← hlogout, Prod.eta]
  obtain ⟨r, -, -, -, -, -, hfound⟩ := hbehind ⟨"ada", "secret"⟩ ⟨"https://app.example/home", 1⟩ hran hlow hhigh
  obtain ⟨hstored, hvalid⟩ := hfound quirkyLogin.2 rfl
  exact ⟨hlogin, ⟨r, hstored⟩, hvalid, hlogout, (hgone hleft quirkyLogout.2 rfl).2⟩

end SignOn
