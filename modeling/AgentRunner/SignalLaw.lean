import AgentRunner.ServicePids

/-! Whom `stop` and `kill` signal, and what a round that finds the lock held says of its
holder, while processes take the locks, die anywhere, and leave their numbers to others. -/
namespace AgentRunner.SignalLaw
open Effects Triples PyValue JsonText JsonFraming TextLines JsonRoundTrip ContextStore JsonAscii
open LockRecord ServicePids

/-- The locks with a record beside them: that of `serve.pid`, and that of the rounds. -/
inductive LockFile where
  | serve
  | round
  deriving DecidableEq

/-- The processes of a host, as `os.getpid` and `psutil` name them. `ours` are those of the
user. -/
structure Processes (i : Interpreter) (P : Type) where
  pid : P → ℕ
  createTime : P → ℚ
  ours : P → Prop
  ordinary : ∀ p, 1 < pid p
  bounded : ∀ p, pid p < 2 ^ 31
  /-- A number does not come around again within a second. -/
  spaced : ∀ p q, pid p = pid q → p ≠ q → 1 ≤ |createTime p - createTime q|
  printed : ∀ p, Storable i 1 (.float (.finite (createTime p)))
  deep : 0 < i.maxDepth

section
variable {i : Interpreter} {P : Type} (w : Processes i P)

/-- What a process writes of itself: `serve.pid` is replaced whole, the sidecar written in
place. -/
def Processes.Names : LockFile → P → List UInt8 → Prop
  | .serve, p, text => w.ours p ∧ text = fileBytes i (pidPayload (w.pid p) (w.createTime p))
  | .round, p, text => w.ours p ∧ ∃ startedAt cmdline,
      text = sidecarBytes i (holderPayload (w.pid p) startedAt cmdline (w.createTime p))

def Processes.Reaches [DecidableEq P] :
    System LockFile P UInt8 → System LockFile P UInt8 → Prop :=
  LockRecord.Reaches w.pid (· = .round) w.Names

def Processes.Sound : System LockFile P UInt8 → Prop :=
  LockRecord.Sound w.pid (· = .round) w.Names

/-- A process with this number is there. -/
def Processes.Bears (s : System LockFile P UInt8) (n : ℤ) (p : P) : Prop :=
  (s.life p).present = true ∧ (w.pid p : ℤ) = n

/-- What a command sees of the processes and their records. -/
structure Processes.Sees (s : System LockFile P UInt8) (v : View) : Prop where
  pidFile : v.pidFile = (s.record .serve).map Prod.snd
  sidecar : v.sidecar = (s.record .round).map Prod.snd
  createTime : ∀ n t, v.createTimeOf n = some t → ∃ p, w.Bears s n p ∧ w.createTime p = t
  readable : ∀ n p, w.Bears s n p → w.ours p → v.createTimeOf n = some (w.createTime p)
  signalable : ∀ n, v.signalable n = true ↔ ∃ p, w.Bears s n p ∧ w.ours p
  present : ∀ n, v.present n = true ↔ ∃ p, w.Bears s n p

/-- A stretch of time: where the processes stand at each moment, and what is seen there. In
between they do what they will. -/
structure Timeline [DecidableEq P] (views : ℕ → View) where
  state : ℕ → System LockFile P UInt8
  start : w.Reaches .empty (state 0)
  next : ∀ m, w.Reaches (state m) (state (m + 1))
  sees : ∀ m, w.Sees (state m) (views m)

/-! ## Records as they are read -/

theorem Processes.storable_pid (p : P) (depth : Nat) : Storable i depth (.int (w.pid p)) := by
  have short : (Nat.toDigits 10 (w.pid p)).length ≤ 10 :=
    (Nat.length_toDigits_le_iff (by decide) (by decide)).mpr
      (lt_of_lt_of_le (w.bounded p) (by decide))
  exact short.trans (by decide)

theorem Processes.storable_pidPayload (p : P) :
    Storable i 0 (pidPayload (w.pid p) (w.createTime p)) :=
  ⟨w.deep, (by decide : ["pid", "create_time"].Nodup), w.storable_pid p 1, w.printed p, trivial⟩

theorem Processes.storable_holderPayload (p : P) (startedAt cmdline : String) :
    Storable i 0 (holderPayload (w.pid p) startedAt cmdline (w.createTime p)) :=
  ⟨w.deep, (by decide : ["pid", "started_at", "cmdline", "create_time"].Nodup),
    w.storable_pid p 1, trivial, trivial, w.printed p, trivial⟩

theorem none_found {α : Type} {p : α → Prop} : ∀ n ∈ (none : Option α), p n := by
  intro n member
  cases member

/-- A text between two solid characters has nothing to strip. -/
theorem strip_solid {c d : Char} (first : isSpace c = false) (last : isSpace d = false)
    (text : List Char) : strip (c :: text ++ [d]) = c :: text ++ [d] := by
  have left : lstrip (c :: text ++ [d]) = c :: text ++ [d] :=
    List.dropWhile_cons_of_neg (by simp [first])
  rw [strip, left, rstrip_solid last]

/-- `PIDFile.read` parses what `PIDFile.write` wrote. -/
theorem Processes.pidFileJson_written (p : P) :
    pidFileJson i (some (fileBytes i (pidPayload (w.pid p) (w.createTime p)))) =
      .ok (some (pidPayload (w.pid p) (w.createTime p))) := by
  have loaded := loads_write_alone i .indented (w.storable_pidPayload p)
  have plain := write_noReturn i (pidPayload (w.pid p) (w.createTime p)) 0
  obtain ⟨text, shape⟩ : ∃ text, write i .indented 0 (pidPayload (w.pid p) (w.createTime p)) =
      '{' :: text ++ ['}'] := ⟨_, by rw [pidPayload, write, List.cons_append]⟩
  simp only [pidFileJson, fileBytes, decodeStrict_encode, universalNewlines_plain plain]
  rw [shape] at loaded ⊢
  rw [strip_solid (by decide) (by decide), loaded]

/-! ## The sidecar -/

theorem encode_printable {text : List Char} (printable : Printable text) :
    Utf8.encode text = text.map fun c => UInt8.ofNat c.toNat := by
  induction text with
  | nil => rfl
  | cons c text ih =>
    obtain ⟨narrow, rest⟩ := List.forall_mem_cons.mp printable
    have ascii : c.toNat < 0x80 := by omega
    rw [Utf8.encode_cons, ih rest, List.map_cons, Utf8.encodeChar, if_pos ascii]
    rfl

theorem asciiChar_oneLine {c : Char} (plain : ¬ LineEnd c) : OneLine (asciiChar c) := by
  have unit : ∀ n, OneLine (unitEscape n) := by
    intro n
    have digit : ∀ m, ¬ LineEnd (Nat.digitChar (m % 16)) := fun m =>
      digitChar_plain ⟨m % 16, Nat.mod_lt m (by decide)⟩
    exact .cons (by decide) (.cons (by decide) (.cons (digit _) (.cons (digit _)
      (.cons (digit _) (.cons (digit _) nofun)))))
  unfold asciiChar
  split_ifs
  · exact .cons plain nofun
  · exact unit _
  · exact (unit _).append (unit _)

theorem asciiDumps_oneLine (i : Interpreter) (v : Json) : OneLine (asciiDumps i v) := by
  intro c member
  obtain ⟨d, inside, escaped⟩ := List.mem_flatMap.mp member
  exact asciiChar_oneLine (dumps_oneLine i v d inside) c escaped

theorem asciiDumps_obj (i : Interpreter) (fields : Event) :
    ∃ body, asciiDumps i (.obj fields) = '{' :: body ++ ['}'] := by
  refine ⟨(dumpsFields i fields).flatMap asciiChar, ?_⟩
  simp only [asciiDumps, dumps, List.flatMap_append, List.flatMap_cons, List.flatMap_nil]
  rfl

/-- Whatever there is of a sidecar so far: all of it, or nothing that reads. -/
theorem readJson_part (i : Interpreter) {fields : Event} (storable : Storable i 0 (.obj fields))
    {written : List UInt8} (part : written <+: sidecarBytes i (.obj fields)) :
    readJson i (some written) = .ok (.obj fields) ∨ readJson i (some written) = .ok .null := by
  have loaded := loads_asciiDumps storable
  obtain ⟨body, shape⟩ := asciiDumps_obj i fields
  have printable := asciiDumps_printable (i := i) (.obj fields)
  have oneLine := asciiDumps_oneLine i (.obj fields)
  rw [sidecarBytes, encode_printable printable] at part
  obtain ⟨text, begins, rfl⟩ := List.prefix_map_iff.mp part
  obtain ⟨rest, split⟩ := begins
  have inside : ∀ c ∈ text, c ∈ asciiDumps i (.obj fields) := fun c member =>
    split ▸ List.mem_append_left rest member
  have plain : universalNewlines text = text :=
    universalNewlines_plain (noReturn_of_oneLine fun c member => oneLine c (inside c member))
  have narrow : Printable text := fun c member => printable c (inside c member)
  rw [← encode_printable narrow, readJson, Option.bind_some, decodeStrict_encode]
  simp only [plain]
  obtain rfl | ⟨more, last, rfl⟩ := List.eq_nil_or_concat' rest
  · rw [List.append_nil] at split
    rw [split, loaded]
    exact .inl rfl
  · right
    rw [shape] at loaded split
    rw [List.cons_append] at loaded
    obtain rfl : last = '}' := by
      have same := congrArg List.getLast? split
      rw [← List.append_assoc, List.getLast?_concat, List.getLast?_concat] at same
      exact Option.some.inj same
    have cut : '{' :: (body ++ ['}']) = text ++ more ++ ['}'] := by
      rw [List.append_assoc, split]
      rfl
    obtain none | raised := loads_torn (by decide) loaded cut
    · rw [none]
    · rw [raised]

theorem Processes.validPid_pid (a : P) : validPid (.int (w.pid a)) = some (w.pid a : ℤ) :=
  if_pos (by exact_mod_cast w.ordinary a)

/-- A record that names a process is read on. -/
theorem triple_matched {pre : Caller → Prop} {post : Option ℤ → Caller → Prop}
    {exc : Raised → Caller → Prop} {answer : Option ℤ} {n : ℤ} {f : ℤ → Cmd (Option ℤ)}
    (valid : answer = some n) (holds : Triple pre (f n) post exc) :
    Triple pre (match answer with
      | none => pure none
      | some pid => f pid) post exc := by
  subst valid
  exact holds

/-! ## What a command may rely on -/

variable {w} [DecidableEq P] {views : ℕ → View} (T : Timeline w views)

theorem Timeline.reaches {m n : ℕ} (order : m ≤ n) : w.Reaches (T.state m) (T.state n) := by
  induction n, order using Nat.le_induction with
  | base => exact .refl
  | succ n _ ih => exact ih.trans (T.next n)

theorem Timeline.sound (m : ℕ) : w.Sound (T.state m) :=
  sound_reaches (sound_reaches sound_empty T.start) (T.reaches (Nat.zero_le m))

/-- The number was read from a record that `a` had written, and `a` bore it when that was
checked. -/
structure Timeline.Found (l : LockFile) (n : ℤ) (read checked : ℕ) (a : P) : Prop where
  order : read < checked
  wrote : ∃ text, (T.state read).record l = some (a, text)
  bears : w.Bears (T.state checked) n a

variable {T} {l : LockFile} {n : ℤ} {read checked m : ℕ} {a q : P}

theorem Timeline.Found.held (found : T.Found l n read checked a)
    (alive : (T.state checked).life a = .living) : (T.state read).lock l = some a := by
  obtain ⟨text, wrote⟩ := found.wrote
  exact (T.sound read).holder_of_record wrote (T.reaches found.order.le) alive

theorem Timeline.Found.successor (found : T.Found l n read checked a) (later : checked ≤ m)
    (bears : w.Bears (T.state m) n q) : q = a ∨ (T.state checked).life q = .unborn := by
  refine (T.sound checked).successor found.bears.1 (T.reaches later) bears.1 ?_
  exact Int.ofNat.inj (bears.2.trans found.bears.2.symm)

/-- What was born and bears its number no longer is dead. -/
theorem Timeline.dead_of_absent (born : (T.state m).life a ≠ .unborn)
    (gone : ¬ w.Bears (T.state m) (w.pid a) a) : (T.state m).life a = .dead := by
  cases life : (T.state m).life a with
  | unborn => exact absurd life born
  | living => exact absurd ⟨by rw [life]; rfl, rfl⟩ gone
  | zombie => exact absurd ⟨by rw [life]; rfl, rfl⟩ gone
  | dead => rfl

theorem Timeline.author_born {text : List UInt8} (wrote : (T.state read).record l = some (a, text))
    (later : read ≤ m) : (T.state m).life a ≠ .unborn :=
  born_reaches ((T.sound read).born l a text wrote) (T.reaches later)

theorem Timeline.named {text : List UInt8} (wrote : (T.state m).record l = some (a, text)) :
    ∃ whole, w.Names l a whole ∧ text <+: whole ∧ (l = .round ∨ text = whole) :=
  (T.sound m).named l a text wrote

theorem Timeline.ours_of_wrote {text : List UInt8} (wrote : (T.state m).record l = some (a, text)) :
    w.ours a := by
  obtain ⟨whole, names, -⟩ := T.named wrote
  cases l with
  | serve => exact names.1
  | round => exact names.1

/-! ## Readers -/

/-- No earlier, and nothing sent since. -/
structure Since (c₀ c : Caller) : Prop where
  sent : c.sent = c₀.sent
  later : c₀.moment ≤ c.moment

theorem Since.refl (c : Caller) : Since c c := ⟨rfl, le_rfl⟩

theorem Since.trans {c₁ c₂ c₃ : Caller} (first : Since c₁ c₂) (second : Since c₂ c₃) :
    Since c₁ c₃ := ⟨second.sent.trans first.sent, first.later.trans second.later⟩

theorem Since.tick (c : Caller) : Since c ⟨c.moment + 1, c.sent⟩ := ⟨rfl, Nat.le_succ _⟩

variable {host : Host} {c₀ : Caller} {exc : Raised → Caller → Prop}

theorem triple_look {α : Type} (read : View → α) : Triple (· = c₀) (look views read)
    (fun answer c => c = ⟨c₀.moment + 1, c₀.sent⟩ ∧ answer = read (views c₀.moment)) exc := by
  refine triple_perform ?_
  rintro c rfl
  exact ⟨rfl, rfl⟩

/-- The start time tells a process from those that bore its number before it and after. -/
theorem triple_createTimeMatches (a : P) :
    Triple (· = c₀) (createTimeMatches host views (w.pid a) (.float (.finite (w.createTime a))))
      (fun same c => Since c₀ c ∧ (same = true →
        c₀.moment < c.moment ∧ w.Bears (T.state c₀.moment) (w.pid a) a)) exc := by
  refine triple_bind (triple_look _) fun created => triple_from ?_
  rintro c ⟨rfl, seen⟩
  cases created with
  | none =>
    refine triple_pure ?_
    rintro c rfl
    exact ⟨.tick c₀, nofun⟩
  | some created =>
    refine triple_pure ?_
    rintro c rfl
    refine ⟨.tick c₀, fun close => ⟨Nat.lt_succ_self _, ?_⟩⟩
    obtain ⟨p, bears, rfl⟩ := (T.sees c₀.moment).createTime _ _ seen.symm
    obtain rfl : p = a := by
      by_contra other
      have apart := w.spaced p a (Int.ofNat.inj bears.2) other
      exact absurd (of_decide_eq_true close) (not_lt.mpr apart)
    exact bears

/-- `PIDFile.read` returns the number of a process that wrote the file and is still there. -/
theorem triple_pidFileRead : Triple (· = c₀) (pidFileRead i host views)
    (fun answer c => Since c₀ c ∧ ∀ n ∈ answer, ∃ read checked a,
      checked < c.moment ∧ T.Found .serve n read checked a) exc := by
  refine triple_bind (triple_look _) fun content => triple_from ?_
  rintro c ⟨rfl, seen⟩
  rw [(T.sees c₀.moment).pidFile] at seen
  subst seen
  cases there : (T.state c₀.moment).record .serve with
  | none =>
    refine triple_pure ?_
    rintro c rfl
    exact ⟨.tick c₀, none_found⟩
  | some record =>
    obtain ⟨a, text⟩ := record
    obtain ⟨whole, ⟨-, rfl⟩, -, same⟩ := T.named there
    obtain rfl := same.resolve_left (by rintro ⟨⟩)
    simp only [Option.map_some, w.pidFileJson_written a]
    refine triple_matched (w.validPid_pid a) ?_
    refine triple_bind (triple_createTimeMatches (T := T) a) fun same => triple_from ?_
    rintro c ⟨since, known⟩
    cases same with
    | false =>
      refine triple_pure ?_
      rintro _ rfl
      exact ⟨(Since.tick c₀).trans since, none_found⟩
    | true =>
      refine triple_pure ?_
      rintro _ rfl
      refine ⟨(Since.tick c₀).trans since, ?_⟩
      rintro n ⟨⟩
      obtain ⟨before, bears⟩ := known rfl
      exact ⟨c₀.moment, c₀.moment + 1, a, before, Nat.lt_succ_self _, ⟨_, there⟩, bears⟩

theorem triple_pidAlive (n : ℤ) : Triple (· = c₀) (pidAlive views n)
    (fun alive c => c = ⟨c₀.moment + 1, c₀.sent⟩ ∧
      (alive = true ↔ ∃ p, w.Bears (T.state c₀.moment) n p ∧ w.ours p)) exc := by
  refine triple_post (triple_look _) ?_
  rintro alive c ⟨rfl, rfl⟩
  exact ⟨rfl, (T.sees c₀.moment).signalable n⟩

/-- What a reader of the sidecar parses: nothing, or what its author wrote. -/
theorem Timeline.sidecar_read (m : ℕ) : readJson i (views m).sidecar = .ok .null ∨
    ∃ a startedAt cmdline text, (T.state m).record .round = some (a, text) ∧
      text <+: sidecarBytes i (holderPayload (w.pid a) startedAt cmdline (w.createTime a)) ∧
      readJson i (views m).sidecar =
        .ok (holderPayload (w.pid a) startedAt cmdline (w.createTime a)) := by
  rw [(T.sees m).sidecar]
  cases there : (T.state m).record .round with
  | none => exact .inl rfl
  | some record =>
    obtain ⟨a, text⟩ := record
    obtain ⟨whole, ⟨-, startedAt, cmdline, rfl⟩, part, -⟩ := T.named there
    obtain all | none := readJson_part i (w.storable_holderPayload a startedAt cmdline) part
    · exact .inr ⟨a, startedAt, cmdline, text, rfl, part, all⟩
    · exact .inl none

/-- `_round_holder_pid` returns the number of a process that wrote the sidecar and is still
there. -/
theorem triple_roundHolderPid : Triple (· = c₀) (roundHolderPid i host views)
    (fun answer c => Since c₀ c ∧ ∀ n ∈ answer, ∃ read checked a,
      checked < c.moment ∧ T.Found .round n read checked a) exc := by
  refine triple_bind (triple_look _) fun content => triple_from ?_
  rintro c ⟨rfl, rfl⟩
  obtain none | ⟨a, startedAt, cmdline, text, there, -, reads⟩ := T.sidecar_read c₀.moment
  · rw [none]
    refine triple_pure ?_
    rintro c rfl
    exact ⟨.tick c₀, none_found⟩
  · rw [reads]
    refine triple_matched (w.validPid_pid a) ?_
    refine triple_bind (triple_pidAlive (T := T) _) fun alive => triple_from ?_
    rintro c ⟨rfl, -⟩
    have probed : Since c₀ ⟨c₀.moment + 1 + 1, c₀.sent⟩ := (Since.tick c₀).trans (.tick _)
    cases alive with
    | false =>
      refine triple_pure ?_
      rintro c rfl
      exact ⟨probed, none_found⟩
    | true =>
      refine triple_bind (triple_createTimeMatches (T := T) a) fun same => triple_from ?_
      rintro c ⟨since, known⟩
      cases same with
      | false =>
        refine triple_pure ?_
        rintro _ rfl
        exact ⟨probed.trans since, none_found⟩
      | true =>
        refine triple_pure ?_
        rintro _ rfl
        refine ⟨probed.trans since, ?_⟩
        rintro n ⟨⟩
        obtain ⟨before, bears⟩ := known rfl
        exact ⟨c₀.moment, c₀.moment + 1 + 1, a, before, by omega, ⟨text, there⟩, bears⟩

/-! ## Waiting -/

variable {patience : ℕ}

/-- A wait sends nothing, and ends with an answer of its predicate. -/
theorem triple_waitUntil {predicate : Cmd Bool} {known : Bool → Caller → Prop}
    (asks : ∀ c₁, Since c₀ c₁ →
      Triple (· = c₁) predicate (fun answer c => Since c₁ c ∧ known answer c) (fun _ => Since c₀))
    (timeoutS : ℚ) : Triple (· = c₀) (waitUntil views patience predicate timeoutS)
      (fun answer c => Since c₀ c ∧ known answer c) (fun _ => Since c₀) := by
  have ask : Triple (Since c₀) predicate (fun answer c => Since c₀ c ∧ known answer c)
      (fun _ => Since c₀) := by
    refine triple_from fun c₁ since => triple_post (asks c₁ since) ?_
    exact fun _ _ done => ⟨since.trans done.1, done.2⟩
  have clock : Triple (Since c₀) (look views (·.monotonic)) (fun _ => Since c₀)
      (fun _ => Since c₀) := by
    refine triple_from fun c₁ since => triple_post (triple_look _) ?_
    rintro _ _ ⟨rfl, -⟩
    exact since.trans (.tick c₁)
  refine triple_bind (triple_pre clock ?_) fun started => ?_
  · rintro _ rfl
    exact .refl _
  refine triple_bind ?_ fun _ => ask
  refine triple_loop (fun _ => Since c₀) (fun _ => ?_) ?_ patience ()
  swap
  · exact fun _ _ => id
  refine triple_bind ask fun answer => ?_
  cases answer with
  | true => exact triple_pure fun _ => And.left
  | false =>
    refine triple_bind (triple_pre clock fun _ => And.left) fun now => ?_
    exact triple_ite (fun _ => triple_pure fun _ => id) fun _ => triple_pure fun _ => id

/-- `_await_pid_exit` says that the process is gone only where nobody of the user's bears its
number. -/
theorem triple_awaitPidExit (n : ℤ) (timeoutS : ℚ) :
    Triple (· = c₀) (awaitPidExit views patience n timeoutS)
      (fun alive c => Since c₀ c ∧ ∃ m, c₀.moment ≤ m ∧ m < c.moment ∧
        (alive = true ↔ ∃ p, w.Bears (T.state m) n p ∧ w.ours p)) (fun _ => Since c₀) := by
  have asks : ∀ c₁, Since c₀ c₁ → Triple (· = c₁) (do return !(← pidAlive views n))
      (fun gone c => Since c₁ c ∧ ∃ m, c₀.moment ≤ m ∧ m < c.moment ∧
        (gone = false ↔ ∃ p, w.Bears (T.state m) n p ∧ w.ours p)) (fun _ => Since c₀) := by
    intro c₁ since
    refine triple_bind (triple_pidAlive (T := T) n) fun alive => triple_pure ?_
    rintro _ ⟨rfl, known⟩
    refine ⟨.tick c₁, c₁.moment, since.later, Nat.lt_succ_self _, ?_⟩
    rw [← known, Bool.not_eq_false']
  refine triple_bind (triple_waitUntil asks timeoutS) fun gone => triple_pure ?_
  rintro c ⟨since, m, no_earlier, before, known⟩
  refine ⟨since, m, no_earlier, before, ?_⟩
  rw [← known, Bool.not_eq_true']

/-! ## Answers -/

/-- What an answer says of the number it gives. -/
def Timeline.Tells (T : Timeline w views) (status : ServiceStatus) (c : Caller) : Prop :=
  ∀ n ∈ status.pid, ∃ read checked a, T.Found .serve n read checked a ∧
    (status.active = false → (T.state c.moment).life a = .dead)

theorem Timeline.dead_reaches {k : ℕ} (dead : (T.state m).life a = .dead) (order : m ≤ k) :
    (T.state k).life a = .dead := LockRecord.dead_reaches dead (T.reaches order)

/-- A probe that finds nobody finds the process dead that once bore the number. -/
theorem Timeline.Found.gone (found : T.Found l n read checked a) (later : checked ≤ m)
    {alive : Bool} (known : alive = true ↔ ∃ p, w.Bears (T.state m) n p ∧ w.ours p)
    (none : alive = false) : (T.state m).life a = .dead := by
  obtain ⟨text, wrote⟩ := found.wrote
  refine T.dead_of_absent (T.author_born wrote (found.order.le.trans later)) fun bears => ?_
  rw [known.mpr ⟨a, ⟨bears.1, found.bears.2⟩, T.ours_of_wrote wrote⟩] at none
  cases none

theorem triple_pidFileActive : Triple (· = c₀) (pidFileActive i host views)
    (fun answer c => Since c₀ c ∧ T.Tells ⟨.pidFile, answer.2, answer.1⟩ c) exc := by
  refine triple_bind (triple_pidFileRead (T := T)) fun pid => triple_from ?_
  rintro c ⟨since, known⟩
  cases pid with
  | none =>
    refine triple_pure ?_
    rintro _ rfl
    exact ⟨since, none_found⟩
  | some n =>
    obtain ⟨read, checked, a, before, found⟩ := known n rfl
    refine triple_bind (triple_pidAlive (T := T) n) fun alive => triple_pure ?_
    rintro _ ⟨rfl, bears⟩
    refine ⟨since.trans (.tick c), ?_⟩
    rintro n ⟨⟩
    refine ⟨read, checked, a, found, fun inactive => ?_⟩
    exact T.dead_reaches (found.gone before.le bears inactive) (Nat.le_succ _)

theorem triple_detectServiceMode (T : Timeline w views) :
    Triple (· = c₀) (detectServiceMode i host views) (fun _ => Since c₀) exc := by
  have returns : ∀ mode : ServiceMode, Triple (Since c₀) (pure mode : Cmd ServiceMode)
      (fun _ => Since c₀) exc := fun mode => triple_pure fun _ => id
  have looks : ∀ {α : Type} (read : View → α), Triple (Since c₀) (look views read)
      (fun _ => Since c₀) exc := by
    intro α read
    refine triple_from fun c since => triple_post (triple_look read) ?_
    rintro _ _ ⟨rfl, -⟩
    exact since.trans (.tick c)
  have begins : ∀ c, c = c₀ → Since c₀ c := by
    rintro c rfl
    exact .refl c
  refine triple_pre ?_ begins
  refine triple_bind (looks _) fun unit => triple_ite (fun _ => ?_) fun _ => ?_
  · refine triple_bind (looks _) fun state => triple_ite (fun _ => returns _) fun _ => ?_
    have reads : Triple (Since c₀) (pidFileRead i host views) (fun _ => Since c₀) exc := by
      refine triple_from fun c since => triple_post (triple_pidFileRead (T := T)) ?_
      exact fun _ _ done => since.trans done.1
    refine triple_bind reads fun pid => ?_
    cases pid with
    | none => exact returns _
    | some n =>
      refine triple_bind (looks _) fun alive => ?_
      exact triple_ite (fun _ => returns _) fun _ => returns _
  · refine triple_bind (looks _) fun there => ?_
    exact triple_ite (fun _ => returns _) fun _ => returns _

theorem triple_status : Triple (· = c₀) (status i host views)
    (fun answer c => Since c₀ c ∧ T.Tells answer c) exc := by
  refine triple_bind (triple_detectServiceMode T) fun mode => triple_from fun c since => ?_
  have silent : ∀ (mode : ServiceMode) (active : Bool) (c₁ : Caller),
      Since c₀ c₁ → Since c₀ c₁ ∧ T.Tells ⟨mode, active, none⟩ c₁ :=
    fun _ _ _ later => ⟨later, nofun⟩
  cases mode with
  | none => exact triple_pure fun _ same => silent _ _ _ (same ▸ since)
  | pidFile =>
    refine triple_bind (triple_pidFileActive (T := T)) fun answer => triple_pure ?_
    exact fun _ done => ⟨since.trans done.1, done.2⟩
  | systemdUser =>
    refine triple_bind (triple_look _) fun state => triple_from ?_
    rintro _ ⟨rfl, -⟩
    have later := since.trans (.tick c)
    refine triple_ite (fun _ => ?_) fun _ => triple_ite (fun _ => ?_) fun _ => ?_
    · exact triple_pure fun _ same => silent _ _ _ (same ▸ later)
    · exact triple_pure fun _ same => silent _ _ _ (same ▸ later)
    · refine triple_bind (triple_pidFileActive (T := T)) fun answer => triple_pure ?_
      exact fun _ done => silent _ _ _ (later.trans done.1)

/-! ## Signals -/

/-- Among the signals sent, a SIGTERM before this moment to such a number. -/
def Terminated (sent : List Sent) (m : ℕ) (whom : ℤ → Prop) : Prop :=
  ∃ e ∈ sent, e.signal = .term ∧ e.moment < m ∧ whom e.pid

/-- The number was read from `serve.pid`. -/
def Timeline.Served (T : Timeline w views) (n : ℤ) : Prop :=
  ∃ read checked a, T.Found .serve n read checked a

/-- What stands behind a signal: the process found for its number, a SIGTERM of the serve
before that of its round, and a SIGTERM and a probe before a SIGKILL. -/
structure Timeline.Aimed (T : Timeline w views) (sent : List Sent) (s : Sent) : Prop where
  aim : ∃ l read checked a, checked < s.moment ∧ T.Found l s.pid read checked a ∧
    (l = .round → Terminated sent s.moment T.Served)
  last : s.signal = .kill → ∃ m, m < s.moment ∧ (∃ p, w.Bears (T.state m) s.pid p ∧ w.ours p) ∧
    Terminated sent m (· = s.pid)

structure Timeline.Lawful (T : Timeline w views) (c : Caller) : Prop where
  aimed : ∀ s ∈ c.sent, T.Aimed c.sent s
  past : ∀ s ∈ c.sent, s.moment < c.moment

/-- Later, and lawful all the while. -/
structure Timeline.Follows (T : Timeline w views) (c₀ c : Caller) : Prop where
  lawful : T.Lawful c
  sent : c₀.sent <+: c.sent
  later : c₀.moment ≤ c.moment

theorem Terminated.mono {sent more : List Sent} {m k : ℕ} {whom : ℤ → Prop}
    (terminated : Terminated sent m whom) (grows : sent <+: more) (order : m ≤ k) :
    Terminated more k whom := by
  obtain ⟨e, member, term, before, known⟩ := terminated
  exact ⟨e, grows.subset member, term, before.trans_le order, known⟩

theorem Timeline.Aimed.mono {sent more : List Sent} {s : Sent} (aimed : T.Aimed sent s)
    (grows : sent <+: more) : T.Aimed more s where
  aim := by
    obtain ⟨l, read, checked, a, before, found, round⟩ := aimed.aim
    exact ⟨l, read, checked, a, before, found, fun same => (round same).mono grows le_rfl⟩
  last kill := by
    obtain ⟨m, before, alive, term⟩ := aimed.last kill
    exact ⟨m, before, alive, term.mono grows le_rfl⟩

theorem Timeline.Lawful.since (lawful : T.Lawful c₀) {c : Caller} (since : Since c₀ c) :
    T.Follows c₀ c where
  lawful := ⟨since.sent ▸ lawful.aimed, fun s member =>
    (lawful.past s (since.sent ▸ member)).trans_le since.later⟩
  sent := since.sent ▸ List.prefix_rfl
  later := since.later

theorem Timeline.Follows.trans {c₁ c₂ c₃ : Caller} (first : T.Follows c₁ c₂)
    (second : T.Follows c₂ c₃) : T.Follows c₁ c₃ :=
  ⟨second.lawful, first.sent.trans second.sent, first.later.trans second.later⟩

/-- A command that only looks keeps to the law. -/
theorem triple_lawful {α : Type} {x : Cmd α} {post : α → Caller → Prop} (lawful : T.Lawful c₀)
    (looks : Triple (· = c₀) x (fun a c => Since c₀ c ∧ post a c) (fun _ => Since c₀)) :
    Triple (· = c₀) x (fun a c => T.Follows c₀ c ∧ post a c) (fun _ => T.Follows c₀) :=
  triple_conseq looks (fun _ => id) (fun _ _ done => ⟨lawful.since done.1, done.2⟩)
    fun _ _ => lawful.since

theorem triple_sendSignalToPid {n : ℤ} {signal : Signal} (lawful : T.Lawful c₀)
    (aimed : T.Aimed c₀.sent ⟨c₀.moment, n, signal⟩) :
    Triple (· = c₀) (sendSignalToPid n signal)
      (fun _ c => T.Follows c₀ c ∧ c₀.moment < c.moment ∧
        c.sent = c₀.sent ++ [⟨c₀.moment, n, signal⟩]) exc := by
  refine triple_perform ?_
  rintro c rfl
  have grows : c.sent <+: c.sent ++ [⟨c.moment, n, signal⟩] := List.prefix_append _ _
  refine ⟨⟨⟨fun s member => ?_, fun s member => ?_⟩, grows, Nat.le_succ _⟩,
    Nat.lt_succ_self _, rfl⟩
  · obtain old | new := List.mem_append.mp member
    · exact (lawful.aimed s old).mono grows
    · exact List.mem_singleton.mp new ▸ aimed.mono grows
  · obtain old | new := List.mem_append.mp member
    · exact (lawful.past s old).trans (Nat.lt_succ_self _)
    · obtain rfl := List.mem_singleton.mp new
      exact Nat.lt_succ_self c.moment

theorem triple_terminateRoundPid {n : ℤ} (lawful : T.Lawful c₀) (before : checked < c₀.moment)
    (found : T.Found .round n read checked a) (served : Terminated c₀.sent c₀.moment T.Served) :
    Triple (· = c₀) (terminateRoundPid views patience n) (fun _ => T.Follows c₀)
      (fun _ => T.Follows c₀) := by
  have aim : ∀ c, T.Follows c₀ c → ∃ l read checked a, checked < c.moment ∧
      T.Found l n read checked a ∧ (l = .round → Terminated c.sent c.moment T.Served) :=
    fun c follows => ⟨.round, read, checked, a, before.trans_le follows.later, found,
      fun _ => served.mono follows.sent follows.later⟩
  refine triple_bind (triple_sendSignalToPid lawful ⟨aim c₀ (lawful.since (.refl _)), nofun⟩)
    fun _ => triple_from ?_
  rintro c ⟨follows, past, sent⟩
  have term : ⟨c₀.moment, n, .term⟩ ∈ c.sent := sent ▸ List.mem_append_right _ (.head _)
  refine triple_seq (fun _ _ => follows.trans)
    (triple_lawful follows.lawful (triple_awaitPidExit (T := T) n roundTermGraceS)) fun alive => ?_
  refine triple_from ?_
  rintro c₁ ⟨later, m, no_earlier, known⟩
  refine triple_ite (fun still => ?_) fun _ => triple_pure ?_
  · have aimed : T.Aimed c₁.sent ⟨c₁.moment, n, .kill⟩ :=
      ⟨aim c₁ (follows.trans later), fun _ => ⟨m, known.1, known.2.mp still,
        _, later.sent.subset term, rfl, past.trans_le no_earlier, rfl⟩⟩
    refine triple_post (triple_sendSignalToPid later.lawful aimed) ?_
    exact fun _ _ done => (follows.trans later).trans done.1
  · rintro _ rfl
    exact follows.trans later

theorem triple_systemctlUser :
    Triple (· = c₀) (systemctlUser views) (fun _ => Since c₀) (fun _ => Since c₀) := by
  refine triple_bind (triple_look _) fun answered => triple_from ?_
  rintro _ ⟨rfl, -⟩
  refine triple_ite (fun _ => triple_pure ?_) fun _ => triple_raise ?_
  · rintro _ rfl
    exact .tick c₀
  · rintro _ rfl
    exact .tick c₀

/-- `lambda: _systemctl_is_active(unit) in _SYSTEMD_INACTIVE_STATES`, polled. -/
theorem triple_waitInactive : Triple (· = c₀) (waitUntil views patience
    (do return systemdInactive (← look views (·.isActive))) pidSignalGraceS)
      (fun _ => Since c₀) (fun _ => Since c₀) := by
  have asks : ∀ c₁, Since c₀ c₁ → Triple (· = c₁)
      (do return systemdInactive (← look views (·.isActive)))
      (fun (_ : Bool) c => Since c₁ c ∧ True) (fun _ => Since c₀) := by
    intro c₁ _
    refine triple_bind (triple_look _) fun state => triple_pure ?_
    rintro _ ⟨rfl, -⟩
    exact ⟨.tick c₁, trivial⟩
  exact triple_post (triple_waitUntil asks pidSignalGraceS) fun _ _ => And.left

/-- A command that only looks, in a state that keeps the law. -/
theorem triple_quiet {α : Type} {x : Cmd α} {post : α → Caller → Prop} (T : Timeline w views)
    (looks : ∀ c₀, Triple (· = c₀) x (fun a c => Since c₀ c ∧ post a c) (fun _ => Since c₀)) :
    Triple T.Lawful x (fun a c => T.Lawful c ∧ post a c) (fun _ => T.Lawful) := by
  refine triple_from fun c lawful => ?_
  refine triple_conseq (triple_lawful lawful (looks c)) (fun _ => id) ?_ ?_
  · exact fun _ _ done => ⟨done.1.lawful, done.2⟩
  · exact fun _ _ => Timeline.Follows.lawful

theorem triple_answers (T : Timeline w views) : Triple T.Lawful (status i host views)
    (fun answer c => T.Lawful c ∧ T.Tells answer c) (fun _ => T.Lawful) :=
  triple_quiet T fun _ => triple_status

theorem quietly {α : Type} {x : Cmd α} (T : Timeline w views)
    (looks : ∀ c₀, Triple (· = c₀) x (fun _ => Since c₀) (fun _ => Since c₀)) :
    Triple T.Lawful x (fun _ => T.Lawful) (fun _ => T.Lawful) :=
  triple_post (triple_quiet T fun c₀ => triple_post (looks c₀) fun _ _ since => ⟨since, trivial⟩)
    fun _ _ => And.left

/-- The SIGTERM to serve, and whatever of the law that settles. -/
theorem triple_terminateServe {n : ℤ} (lawful : T.Lawful c₀) (before : checked < c₀.moment)
    (found : T.Found .serve n read checked a) : Triple (· = c₀) (sendSignalToPid n .term)
      (fun _ c => T.Follows c₀ c ∧ Terminated c.sent c.moment (· = n)) exc := by
  have aimed : T.Aimed c₀.sent ⟨c₀.moment, n, .term⟩ :=
    ⟨⟨.serve, read, checked, a, before, found, nofun⟩, nofun⟩
  refine triple_post (triple_sendSignalToPid lawful aimed) ?_
  rintro _ c ⟨follows, past, sent⟩
  exact ⟨follows, _, sent ▸ List.mem_append_right _ (.head _), rfl, past, rfl⟩

/-- What `stop` does behind its signal. -/
def stopRest (i : Interpreter) (host : Host) (views : ℕ → View) (patience : ℕ) (pid : ℤ) :
    Cmd ServiceStatus := do
  let _ ← awaitPidExit views patience pid pidSignalGraceS
  status i host views

/-- What `kill` does behind its first signal. -/
def killRest (i : Interpreter) (host : Host) (views : ℕ → View) (patience : ℕ) (pid : ℤ) :
    Cmd ServiceStatus := do
  killRound i host views patience
  if ← awaitPidExit views patience pid pidSignalGraceS then
    sendSignalToPid pid .kill
    return ⟨.pidFile, ← pidAlive views pid, some pid⟩
  else return ⟨.pidFile, false, some pid⟩

theorem triple_stopRest {n : ℤ} (lawful : T.Lawful c₀) :
    Triple (· = c₀) (stopRest i host views patience n)
      (fun answer c => T.Follows c₀ c ∧ T.Tells answer c) (fun _ => T.Follows c₀) := by
  refine triple_bind (triple_lawful lawful (triple_awaitPidExit (T := T) n pidSignalGraceS))
    fun _ => triple_from fun c ⟨follows, _⟩ => ?_
  refine triple_conseq (triple_lawful follows.lawful (triple_status (T := T))) (fun _ => id) ?_ ?_
  · exact fun _ _ done => ⟨follows.trans done.1, done.2⟩
  · exact fun _ _ => follows.trans

theorem triple_killRound {n : ℤ} (lawful : T.Lawful c₀) (served : T.Served n)
    (term : Terminated c₀.sent c₀.moment (· = n)) :
    Triple (· = c₀) (killRound i host views patience) (fun _ => T.Follows c₀)
      (fun _ => T.Follows c₀) := by
  refine triple_bind (triple_lawful lawful (triple_roundHolderPid (T := T)))
    fun pid => triple_from fun c ⟨follows, known⟩ => ?_
  cases pid with
  | none => exact triple_pure fun _ same => same ▸ follows
  | some r =>
    obtain ⟨read, checked, a, before, found⟩ := known r rfl
    obtain ⟨e, member, signal, past, rfl⟩ := term.mono follows.sent follows.later
    have serve : Terminated c.sent c.moment T.Served := ⟨e, member, signal, past, served⟩
    refine triple_conseq (triple_terminateRoundPid follows.lawful before found serve)
      (fun _ => id) (fun _ _ => follows.trans) fun _ _ => follows.trans

theorem triple_killRest {n : ℤ} (lawful : T.Lawful c₀) (before : checked < c₀.moment)
    (found : T.Found .serve n read checked a) (term : Terminated c₀.sent c₀.moment (· = n)) :
    Triple (· = c₀) (killRest i host views patience n)
      (fun answer c => T.Follows c₀ c ∧ T.Tells answer c) (fun _ => T.Follows c₀) := by
  refine triple_bind (triple_killRound lawful ⟨read, checked, a, found⟩ term) fun _ => ?_
  refine triple_from fun c₁ first => ?_
  refine triple_seq (fun _ _ => first.trans) (triple_lawful first.lawful
    (triple_awaitPidExit (T := T) n pidSignalGraceS)) fun alive => triple_from ?_
  rintro c₂ ⟨second, m, no_earlier, past, probed⟩
  have follows := first.trans second
  refine triple_ite (fun still => ?_) fun gone => triple_pure ?_
  · have aimed : T.Aimed c₂.sent ⟨c₂.moment, n, .kill⟩ :=
      ⟨⟨.serve, read, checked, a, before.trans_le follows.later, found, nofun⟩, fun _ =>
        ⟨m, past, probed.mp still, term.mono follows.sent (first.later.trans no_earlier)⟩⟩
    refine triple_bind (triple_sendSignalToPid follows.lawful aimed) fun _ => triple_from ?_
    rintro c₃ ⟨third, -, -⟩
    refine triple_bind (triple_pidAlive (T := T) n) fun alive => triple_pure ?_
    rintro _ ⟨rfl, bears⟩
    refine ⟨(follows.trans third).trans (third.lawful.since (.tick c₃)), ?_⟩
    rintro n ⟨⟩
    refine ⟨read, checked, a, found, fun inactive => ?_⟩
    have order : checked ≤ c₃.moment := (before.trans_le (follows.later.trans third.later)).le
    exact T.dead_reaches (found.gone order bears inactive) (Nat.le_succ _)
  · rintro _ rfl
    refine ⟨follows, ?_⟩
    rintro n ⟨⟩
    refine ⟨read, checked, a, found, fun _ => ?_⟩
    exact T.dead_reaches (found.gone (before.le.trans (first.later.trans no_earlier)) probed
      (Bool.eq_false_of_not_eq_true gone)) past.le

/-- A verb that reads `serve.pid`, signals whom it names and goes on. -/
theorem triple_signals (rest : ℤ → Cmd ServiceStatus)
    (goes_on : ∀ {n read checked a c₀}, T.Lawful c₀ → checked < c₀.moment →
      T.Found .serve n read checked a → Terminated c₀.sent c₀.moment (· = n) →
      Triple (· = c₀) (rest n) (fun answer c => T.Follows c₀ c ∧ T.Tells answer c)
        (fun _ => T.Follows c₀)) :
    Triple T.Lawful (do
      match ← pidFileRead i host views with
      | none => status i host views
      | some pid =>
        sendSignalToPid pid .term
        rest pid) (fun answer c => T.Lawful c ∧ T.Tells answer c) (fun _ => T.Lawful) := by
  refine triple_bind (triple_quiet T fun _ => triple_pidFileRead (T := T)) fun pid => ?_
  refine triple_from fun c ⟨lawful, known⟩ => ?_
  cases pid with
  | none => exact triple_pre (triple_answers T) fun _ same => same ▸ lawful
  | some n =>
    obtain ⟨read, checked, a, before, found⟩ := known n rfl
    refine triple_bind (triple_terminateServe lawful before found) fun _ => ?_
    refine triple_from fun c₁ ⟨follows, term⟩ => ?_
    refine triple_conseq (goes_on follows.lawful (before.trans_le follows.later) found term)
      (fun _ => id) (fun _ _ done => ⟨done.1.lawful, done.2⟩) fun _ _ => Timeline.Follows.lawful

theorem triple_stop (T : Timeline w views) : Triple T.Lawful (stop i host views patience)
    (fun answer c => T.Lawful c ∧ T.Tells answer c) (fun _ => T.Lawful) := by
  refine triple_bind (quietly T fun _ => triple_detectServiceMode T) fun mode => ?_
  cases mode with
  | systemdUser =>
    refine triple_bind (quietly T fun _ => triple_systemctlUser) fun _ => ?_
    exact triple_bind (quietly T fun _ => triple_waitInactive) fun _ => triple_answers T
  | pidFile | none =>
    exact triple_signals (stopRest i host views patience)
      fun lawful _ _ _ => triple_stopRest lawful

theorem triple_kill (T : Timeline w views) : Triple T.Lawful (kill i host views patience)
    (fun answer c => T.Lawful c ∧ T.Tells answer c) (fun _ => T.Lawful) := by
  refine triple_bind (quietly T fun _ => triple_detectServiceMode T) fun mode => ?_
  cases mode with
  | systemdUser =>
    refine triple_bind (quietly T fun _ => triple_systemctlUser) fun _ => ?_
    refine triple_bind (quietly T fun _ => triple_waitInactive) fun inactive => ?_
    refine triple_ite (fun _ => triple_answers T) fun _ => ?_
    exact triple_bind (quietly T fun _ => triple_systemctlUser) fun _ => triple_answers T
  | pidFile | none =>
    exact triple_signals (killRest i host views patience) triple_killRest

/-! ## Whom the verbs signal -/

/-- The verbs that ask after a service. -/
inductive Verb where
  | status
  | stop
  | kill

/-- What a verb runs. -/
def Verb.command (i : Interpreter) (host : Host) (views : ℕ → View) (patience : ℕ) :
    Verb → Cmd ServiceStatus
  | .status => ServicePids.status i host views
  | .stop => ServicePids.stop i host views patience
  | .kill => ServicePids.kill i host views patience

/-- A verb as it ends: what it answers, and where it stands. -/
def Verb.run (i : Interpreter) (host : Host) (views : ℕ → View) (patience : ℕ) (verb : Verb) :
    Except Raised ServiceStatus × Caller :=
  outcome (verb.command i host views patience) ⟨0, []⟩

theorem Verb.answers (T : Timeline w views) (host : Host) (patience : ℕ) (verb : Verb) :
    Allowed (fun answer c => T.Lawful c ∧ T.Tells answer c) (fun _ => T.Lawful)
      (verb.run i host views patience).1 (verb.run i host views patience).2 := by
  have holds : Triple T.Lawful (verb.command i host views patience)
      (fun answer c => T.Lawful c ∧ T.Tells answer c) (fun _ => T.Lawful) := by
    cases verb with
    | status => exact triple_answers T
    | stop => exact triple_stop T
    | kill => exact triple_kill T
  exact holds ⟨0, []⟩ _ _ ⟨nofun, nofun⟩ (ends_outcome _ _)

theorem Verb.lawful (T : Timeline w views) (host : Host) (patience : ℕ) (verb : Verb) :
    T.Lawful (verb.run i host views patience).2 := by
  have answers := verb.answers T host patience
  cases answer : (verb.run i host views patience).1 with
  | ok status =>
    rw [answer] at answers
    exact answers.1
  | error raised =>
    rw [answer] at answers
    exact answers

/-- **A service reported inactive is dead.**  Where a verb gives a number, a process with that
number had written `serve.pid`; where it says that this is inactive, that process is dead
when the verb returns, zombies included: a zombie still counts as active. -/
theorem inactive_is_dead (T : Timeline w views) (host : Host) (patience : ℕ) (verb : Verb) :
    ∀ status, (verb.run i host views patience).1 = .ok status → ∀ n ∈ status.pid,
      ∃ read checked a, T.Found .serve n read checked a ∧ (status.active = false →
        (T.state (verb.run i host views patience).2.moment).life a = .dead) := by
  intro status answer n member
  have answers := verb.answers T host patience
  rw [answer] at answers
  exact answers.2 n member

/-! ## Who is reached -/

/-- Until the verb signals it at the latest, `a` serves, and under no active unit. -/
structure Timeline.Serving (T : Timeline w views) (a : P) : Prop where
  record : ∀ m ≤ 7, ∃ text, (T.state m).record .serve = some (a, text)
  alive : ∀ m ≤ 7, (T.state m).life a = .living
  idle : ∀ m ≤ 7, systemdActive (views m).isActive = false

theorem Timeline.Serving.bears (serving : T.Serving a) (early : m ≤ 7) :
    w.Bears (T.state m) (w.pid a) a := ⟨by rw [serving.alive m early]; rfl, rfl⟩

theorem triple_createTimeMatches_serving (serving : T.Serving a) (early : c₀.moment ≤ 7) :
    Triple (· = c₀) (createTimeMatches host views (w.pid a) (.float (.finite (w.createTime a))))
      (fun same c => c = ⟨c₀.moment + 1, c₀.sent⟩ ∧ same = true) exc := by
  obtain ⟨text, there⟩ := serving.record c₀.moment early
  refine triple_bind (triple_look _) fun created => triple_from ?_
  rintro c ⟨rfl, seen⟩
  rw [(T.sees _).readable _ a (serving.bears early) (T.ours_of_wrote there)] at seen
  subst seen
  refine triple_pure ?_
  rintro _ rfl
  refine ⟨rfl, decide_eq_true ?_⟩
  rw [sub_self, abs_zero]
  exact one_pos

theorem triple_pidFileRead_serving (serving : T.Serving a) (early : c₀.moment + 1 ≤ 7) :
    Triple (· = c₀) (pidFileRead i host views) (fun answer c => c = ⟨c₀.moment + 2, c₀.sent⟩ ∧
      answer = some (w.pid a : ℤ) ∧ T.Found .serve (w.pid a) c₀.moment (c₀.moment + 1) a) exc := by
  obtain ⟨text, there⟩ := serving.record c₀.moment (by omega)
  obtain ⟨whole, ⟨-, rfl⟩, -, same⟩ := T.named there
  obtain rfl := same.resolve_left (by rintro ⟨⟩)
  refine triple_bind (triple_look _) fun content => triple_from ?_
  rintro c ⟨rfl, seen⟩
  rw [(T.sees c₀.moment).pidFile, there] at seen
  subst seen
  simp only [Option.map_some, w.pidFileJson_written a]
  refine triple_matched (w.validPid_pid a) ?_
  refine triple_bind (triple_createTimeMatches_serving serving early) fun same => triple_from ?_
  rintro c ⟨rfl, rfl⟩
  refine triple_pure ?_
  rintro _ rfl
  exact ⟨rfl, rfl, Nat.lt_succ_self _, ⟨_, there⟩, serving.bears early⟩

theorem triple_detectServiceMode_serving (serving : T.Serving a) :
    Triple (· = ⟨0, []⟩) (detectServiceMode i host views)
      (fun mode c => mode = .pidFile ∧ c.sent = [] ∧ c.moment ≤ 5) exc := by
  refine triple_bind (triple_look _) fun unit => triple_from ?_
  rintro c ⟨rfl, -⟩
  refine triple_ite (fun _ => ?_) fun _ => ?_
  · refine triple_bind (triple_look _) fun state => triple_from ?_
    rintro c ⟨rfl, rfl⟩
    rw [serving.idle _ (by decide), if_neg Bool.false_ne_true]
    refine triple_bind (triple_pidFileRead_serving serving (by decide)) fun pid => triple_from ?_
    rintro c ⟨rfl, rfl, found⟩
    refine triple_bind (triple_pidAlive (T := T) _) fun alive => triple_from ?_
    rintro c ⟨rfl, known⟩
    obtain ⟨text, there⟩ := serving.record 4 (by decide)
    rw [known.mpr ⟨a, serving.bears (by decide), T.ours_of_wrote there⟩, if_pos rfl]
    refine triple_pure ?_
    rintro _ rfl
    exact ⟨rfl, rfl, by decide⟩
  · refine triple_bind (triple_look _) fun there => triple_from ?_
    rintro c ⟨rfl, seen⟩
    obtain ⟨text, wrote⟩ := serving.record 1 (by decide)
    rw [(T.sees _).pidFile, wrote] at seen
    rw [seen]
    refine triple_pure ?_
    rintro _ rfl
    exact ⟨rfl, rfl, by decide⟩

/-- The first signal, whatever comes behind it. -/
theorem triple_signals_serving {rest : ℤ → Cmd ServiceStatus} (serving : T.Serving a)
    (goes_on : ∀ {n read checked a c₀}, T.Lawful c₀ → checked < c₀.moment →
      T.Found .serve n read checked a → Terminated c₀.sent c₀.moment (· = n) →
      Triple (· = c₀) (rest n) (fun answer c => T.Follows c₀ c ∧ T.Tells answer c)
        (fun _ => T.Follows c₀)) :
    Triple (fun c => c.sent = [] ∧ c.moment ≤ 5) (do
      match ← pidFileRead i host views with
      | none => status i host views
      | some pid =>
        sendSignalToPid pid .term
        rest pid) (fun _ c => ∃ m, [⟨m, w.pid a, .term⟩] <+: c.sent)
      (fun _ c => ∃ m, [⟨m, w.pid a, .term⟩] <+: c.sent) := by
  refine triple_from fun c ⟨unsent, early⟩ => ?_
  refine triple_bind (triple_pidFileRead_serving serving (by omega)) fun pid => triple_from ?_
  rintro c₁ ⟨rfl, rfl, found⟩
  have lawful : T.Lawful ⟨c.moment + 2, c.sent⟩ := by
    rw [unsent]
    exact ⟨nofun, nofun⟩
  have aimed : T.Aimed c.sent ⟨c.moment + 2, w.pid a, .term⟩ :=
    ⟨⟨.serve, c.moment, c.moment + 1, a, Nat.lt_succ_self _, found, nofun⟩, nofun⟩
  refine triple_bind (triple_sendSignalToPid lawful aimed) fun _ => triple_from ?_
  rintro c₂ ⟨follows, past, sent⟩
  rw [unsent, List.nil_append] at sent
  have term : Terminated c₂.sent c₂.moment (· = (w.pid a : ℤ)) :=
    ⟨⟨c.moment + 2, w.pid a, .term⟩, by rw [sent]; exact .head _, rfl, past, rfl⟩
  have known : ∀ c₃, T.Follows c₂ c₃ → ∃ m, [⟨m, w.pid a, .term⟩] <+: c₃.sent :=
    fun c₃ later => ⟨c.moment + 2, sent ▸ later.sent⟩
  refine triple_conseq (goes_on follows.lawful ((Nat.lt_succ_self _).trans past) found term)
    (fun _ => id) (fun _ c₃ done => known c₃ done.1) fun _ => known

theorem Verb.reaches (serving : T.Serving a) (host : Host) (patience : ℕ) {verb : Verb}
    (signals : verb ≠ .status) :
    Triple (· = ⟨0, []⟩) (verb.command i host views patience)
      (fun _ c => ∃ m, [⟨m, w.pid a, .term⟩] <+: c.sent)
      (fun _ c => ∃ m, [⟨m, w.pid a, .term⟩] <+: c.sent) := by
  have ways : ∀ {rest : Cmd ServiceStatus} {other : ServiceMode → Cmd ServiceStatus},
      other .pidFile = rest →
      Triple (fun c => c.sent = [] ∧ c.moment ≤ 5) rest
        (fun _ c => ∃ m, [⟨m, w.pid a, .term⟩] <+: c.sent)
        (fun _ c => ∃ m, [⟨m, w.pid a, .term⟩] <+: c.sent) →
      Triple (· = ⟨0, []⟩) (detectServiceMode i host views >>= other)
        (fun _ c => ∃ m, [⟨m, w.pid a, .term⟩] <+: c.sent)
        (fun _ c => ∃ m, [⟨m, w.pid a, .term⟩] <+: c.sent) := by
    rintro rest other rfl holds
    refine triple_bind (triple_detectServiceMode_serving serving) fun mode => ?_
    refine triple_fact (fun _ known => known.1) ?_
    rintro rfl
    exact triple_pre holds fun _ => And.right
  cases verb with
  | status => exact absurd rfl signals
  | stop => exact ways rfl (triple_signals_serving serving fun lawful _ _ _ => triple_stopRest lawful)
  | kill => exact ways rfl (triple_signals_serving serving triple_killRest)

/-- **A running serve is reached.**  Where no unit is active and a process serves until then,
the first thing `stop` and `kill` do to anyone is to send it a SIGTERM. -/
theorem running_serve_is_signalled (T : Timeline w views) (a : P) (serving : T.Serving a)
    (host : Host) (patience : ℕ) (verb : Verb) (signals : verb ≠ .status) :
    ∃ m rest, (verb.run i host views patience).2.sent = ⟨m, w.pid a, .term⟩ :: rest := by
  have reached := Verb.reaches serving host patience signals ⟨0, []⟩ _ _ rfl (ends_outcome _ _)
  obtain ⟨m, rest, same⟩ := reached.always
  exact ⟨m, rest, same.symm⟩

/-! ## What a refused round says -/

/-- What `_format_holder_msg` tells of the processes. -/
def Timeline.Explains (T : Timeline w views) (c : Caller) : HolderMsg → Prop
  | .missing => True
  | .unreadable => False
  | .stale n => ∃ read probed a, read < probed ∧ probed < c.moment ∧ w.pid a = n ∧
      (∃ text, (T.state read).record .round = some (a, text)) ∧ (T.state probed).life a = .dead
  | .held n startedAt cmdline => ∃ read probed a, read < probed ∧ probed < c.moment ∧ w.pid a = n ∧
      (∃ started line text, startedAt = .str started ∧ cmdline = .str line ∧
        (T.state read).record .round = some (a, text) ∧
        text <+: sidecarBytes i (holderPayload (w.pid a) started line (w.createTime a))) ∧
      ((T.state probed).life a = .living → (T.state read).lock .round = some a) ∧
      ∃ p, w.Bears (T.state probed) n p

theorem triple_formatHolderMsg (T : Timeline w views) :
    Triple (· = c₀) (formatHolderMsg i views) (fun msg c => T.Explains c msg) (fun _ _ => False) := by
  refine triple_bind (triple_look _) fun content => triple_from ?_
  rintro c ⟨rfl, rfl⟩
  obtain none | ⟨a, startedAt, cmdline, text, there, part, reads⟩ := T.sidecar_read c₀.moment
  · rw [none]
    exact triple_pure fun _ _ => trivial
  · rw [reads]
    change Triple _ (do
      if ← look views (·.present (w.pid a)) then
        return HolderMsg.held (w.pid a) (.str startedAt) (.str cmdline)
      else return HolderMsg.stale (w.pid a)) _ _
    have order : c₀.moment < c₀.moment + 1 := Nat.lt_succ_self _
    refine triple_bind (triple_look _) fun present => triple_from ?_
    rintro c ⟨rfl, rfl⟩
    refine triple_ite (fun bears => triple_pure ?_) fun absent => triple_pure ?_
    · rintro _ rfl
      refine ⟨c₀.moment, c₀.moment + 1, a, order, Nat.lt_succ_self _, rfl,
        ⟨startedAt, cmdline, text, rfl, rfl, there, part⟩, fun alive => ?_,
        ((T.sees _).present _).mp bears⟩
      exact (T.sound _).holder_of_record there (T.reaches order.le) alive
    · rintro _ rfl
      refine ⟨c₀.moment, c₀.moment + 1, a, order, Nat.lt_succ_self _, rfl, ⟨text, there⟩, ?_⟩
      exact T.dead_of_absent (T.author_born there order.le)
        fun bears => absent (((T.sees _).present _).mpr ⟨a, bears⟩)

end

/-- One process, with a start time every interpreter writes alike. -/
def alone : Processes twoAndAHalf Unit where
  pid _ := 4242
  createTime _ := 5 / 2
  ours _ := True
  ordinary _ := by decide
  bounded _ := by decide
  spaced p q _ other := absurd (Subsingleton.elim p q) other
  printed _ := rfl
  deep := by decide

def aloneText : List UInt8 := fileBytes twoAndAHalf (pidPayload 4242 (5 / 2))

/-- It serves. -/
def serving : System LockFile Unit UInt8 :=
  ((System.empty.become () .living).move .serve () .locked (some ()) none).move .serve ()
    (.keeping aloneText) (some ()) (some ((), aloneText))

/-- What is seen of it, twenty seconds from one moment to the next. -/
def aloneView (m : ℕ) : View where
  pidFile := some aloneText
  sidecar := none
  createTimeOf n := if n = 4242 then some (5 / 2) else none
  present n := decide (n = 4242)
  signalable n := decide (n = 4242)
  unitFile := false
  isActive := none
  systemctl := false
  monotonic := 20 * m

theorem bears_serving (n : ℤ) (p : Unit) : alone.Bears serving n p ↔ n = 4242 :=
  ⟨fun bears => bears.2.symm, fun same => ⟨rfl, same.symm⟩⟩

def servingAlone : Timeline alone aloneView where
  state _ := serving
  start := by
    have born : Step alone.pid (· = .round) alone.Names System.empty
        (System.empty.become () .living) := .born () rfl nofun
    exact ((Relation.ReflTransGen.single born).tail (.take LockFile.serve () rfl rfl rfl)).tail
      (.replace LockFile.serve () aloneText ⟨trivial, rfl⟩ rfl)
  next _ := .refl
  sees _ :=
    { pidFile := rfl
      sidecar := rfl
      createTime := by
        intro n t seen
        simp only [aloneView, Option.ite_none_right_eq_some, Option.some.injEq] at seen
        exact ⟨(), (bears_serving n ()).mpr seen.1, seen.2⟩
      readable := fun n p bears _ => by
        rw [bears_serving] at bears
        simp only [aloneView, bears, if_true]
        rfl
      signalable := fun n => by
        simp only [bears_serving, aloneView, decide_eq_true_eq]
        exact ⟨fun same => ⟨(), same, trivial⟩, fun ⟨_, same, _⟩ => same⟩
      present := fun n => by
        simp only [bears_serving, exists_const, aloneView, decide_eq_true_eq] }

theorem serving_alone : servingAlone.Serving () :=
  ⟨fun _ _ => ⟨_, rfl⟩, fun _ _ => rfl, fun _ _ => rfl⟩

/-- A host that prints nothing. -/
def mute : Host :=
  ⟨fun _ => "", fun _ => none, fun _ => none, fun _ => none, fun _ => .error .valueError⟩

/-- `stop`, where one process serves. -/
theorem running_serve_is_signalled_alone : ∃ m rest,
    (Verb.stop.run twoAndAHalf mute aloneView 3).2.sent = ⟨m, 4242, .term⟩ :: rest :=
  running_serve_is_signalled servingAlone () serving_alone mute 3 .stop nofun

/-- `kill`, where it does not leave. -/
theorem kill_alone : (Verb.kill.run twoAndAHalf mute aloneView 3).2.sent =
    [⟨4, 4242, .term⟩, ⟨10, 4242, .kill⟩] := by decide +kernel

theorem status_alone : (Verb.status.run twoAndAHalf mute aloneView 3).1 =
    .ok ⟨.pidFile, true, some 4242⟩ := by decide +kernel

/-- `status` gives its number. -/
theorem inactive_is_dead_alone :
    ∃ read checked a, servingAlone.Found .serve 4242 read checked a ∧ (true = false →
      (servingAlone.state (Verb.status.run twoAndAHalf mute aloneView 3).2.moment).life a = .dead) :=
  inactive_is_dead servingAlone mute 3 .status _ status_alone 4242 rfl

end AgentRunner.SignalLaw
