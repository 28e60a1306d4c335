import Mathlib.Data.Option.Basic
import Mathlib.Data.List.Infix
import Mathlib.Logic.Function.Basic
import Mathlib.Logic.Relation

/-! Locks that the kernel takes back from a process that ends, and beside each a record its
holder keeps of itself. A record written in place may be torn, and any outlives a process
that is killed; a number once given to a process may be given to another. What a record
still tells is that whoever wrote it holds the lock, or is dead. -/
set_option linter.unusedSectionVars false

namespace AgentRunner.LockRecord
open Function Relation

/-- A zombie has ended, but its parent has not waited for it yet. -/
inductive Life where
  | unborn
  | living
  | zombie
  | dead
  deriving DecidableEq

/-- Whether a process bears its number. -/
def Life.present : Life → Bool
  | .living | .zombie => true
  | _ => false

/-- How far a process is with a lock. -/
inductive Phase (T : Type) where
  | out
  | locked
  | keeping (text : List T)
  | dropped

def Phase.keeps {T : Type} : Phase T → Bool
  | .keeping _ => true
  | _ => false

/-- The processes, and for each lock who holds it, who wrote its record, and what stands in
that. -/
structure System (L P T : Type) where
  life : P → Life
  phase : L → P → Phase T
  lock : L → Option P
  record : L → Option (P × List T)

variable {L P T : Type} [DecidableEq L] [DecidableEq P]

/-- What one process changes at one lock. -/
def System.move (s : System L P T) (l : L) (p : P) (phase : Phase T) (lock : Option P)
    (record : Option (P × List T)) : System L P T where
  life := s.life
  phase := update s.phase l (update (s.phase l) p phase)
  lock := update s.lock l lock
  record := update s.record l record

def System.become (s : System L P T) (p : P) (life : Life) : System L P T :=
  { s with life := update s.life p life }

/-- A process ends: the kernel takes its locks back, its records stay. -/
def System.exit (s : System L P T) (p : P) : System L P T where
  life := update s.life p .zombie
  phase l := update (s.phase l) p .out
  lock l := if s.lock l = some p then none else s.lock l
  record := s.record

/-- Before any process. -/
def System.empty : System L P T := ⟨fun _ => .unborn, fun _ _ => .out, fun _ => none, fun _ => none⟩

section
variable (s : System L P T) (l k : L) (p q : P) (phase : Phase T) (lock : Option P)
  (record : Option (P × List T)) (life : Life)

@[simp] theorem life_move : (s.move l p phase lock record).life = s.life := rfl

@[simp] theorem phase_move : (s.move l p phase lock record).phase k q =
    if k = l ∧ q = p then phase else s.phase k q := by
  by_cases here : k = l
  · subst here
    by_cases same : q = p
    · subst same
      simp [System.move]
    · simp [System.move, same]
  · simp [System.move, here]

@[simp] theorem lock_move : (s.move l p phase lock record).lock k =
    if k = l then lock else s.lock k := update_apply _ _ _ _

@[simp] theorem record_move : (s.move l p phase lock record).record k =
    if k = l then record else s.record k := update_apply _ _ _ _

@[simp] theorem life_become :
    (s.become p life).life q = if q = p then life else s.life q := update_apply _ _ _ _

@[simp] theorem life_exit : (s.exit p).life q = if q = p then .zombie else s.life q :=
  update_apply _ _ _ _

@[simp] theorem phase_exit : (s.exit p).phase l q = if q = p then .out else s.phase l q :=
  update_apply _ _ _ _

@[simp] theorem lock_exit :
    (s.exit p).lock l = if s.lock l = some p then none else s.lock l := rfl

@[simp] theorem phase_become : (s.become p life).phase = s.phase := rfl

@[simp] theorem lock_become : (s.become p life).lock = s.lock := rfl

@[simp] theorem record_become : (s.become p life).record = s.record := rfl

@[simp] theorem record_exit : (s.exit p).record = s.record := rfl

end

variable (pid : P → ℕ) (inPlace : L → Prop) (names : L → P → List T → Prop)

/-- What a process may do next. A record is written in place, piece by piece, or replaced as
a whole, and unlinked before the lock is given up, if its holder lives so long. -/
inductive Step (s : System L P T) : System L P T → Prop where
  | born (p : P) (new : s.life p = .unborn)
      (free : ∀ q, (s.life q).present = true → pid q ≠ pid p) : Step s (s.become p .living)
  | take (l : L) (p : P) (alive : s.life p = .living) (out : s.phase l p = .out)
      (free : s.lock l = none) : Step s (s.move l p .locked (some p) (s.record l))
  | create (l : L) (p : P) (text : List T) (writes : inPlace l) (own : names l p text)
      (locked : s.phase l p = .locked) :
      Step s (s.move l p (.keeping text) (s.lock l) (some (p, [])))
  | append (l : L) (p : P) (text written more : List T) (writes : inPlace l)
      (keeping : s.phase l p = .keeping text) (there : s.record l = some (p, written))
      (next : written ++ more <+: text) :
      Step s (s.move l p (.keeping text) (s.lock l) (some (p, written ++ more)))
  | replace (l : L) (p : P) (text : List T) (own : names l p text)
      (locked : s.phase l p = .locked) :
      Step s (s.move l p (.keeping text) (s.lock l) (some (p, text)))
  | unlink (l : L) (p : P) (keeps : s.phase l p = .locked ∨ (s.phase l p).keeps = true) :
      Step s (s.move l p .dropped (s.lock l) none)
  | release (l : L) (p : P) (leaves : s.phase l p = .locked ∨ s.phase l p = .dropped) :
      Step s (s.move l p .out none (s.record l))
  | exits (p : P) (alive : s.life p = .living) : Step s (s.exit p)
  | reaped (p : P) (ended : s.life p = .zombie) : Step s (s.become p .dead)

/-- What may have happened between two states. -/
def Reaches : System L P T → System L P T → Prop := ReflTransGen (Step pid inPlace names)

/-! ## The invariant -/

structure Sound (s : System L P T) : Prop where
  holder : ∀ l p, s.lock l = some p ↔ s.phase l p ≠ .out
  living : ∀ l p, s.phase l p ≠ .out → s.life p = .living
  distinct : ∀ p q, (s.life p).present = true → (s.life q).present = true → pid p = pid q → p = q
  born : ∀ l p written, s.record l = some (p, written) → s.life p ≠ .unborn
  author : ∀ l p written, s.record l = some (p, written) → s.life p = .living →
    (s.phase l p).keeps = true
  own : ∀ l p text, s.phase l p = .keeping text → names l p text
  named : ∀ l p written, s.record l = some (p, written) →
    ∃ text, names l p text ∧ written <+: text ∧ (inPlace l ∨ written = text)

variable {pid inPlace names} {s t u : System L P T} {l : L} {p q : P}

theorem sound_empty : Sound pid inPlace names (System.empty : System L P T) where
  holder _ _ := ⟨nofun, fun other => absurd rfl other⟩
  living _ _ other := absurd rfl other
  distinct _ _ alive := by cases alive
  born _ _ _ there := by cases there
  author _ _ _ there := by cases there
  own _ _ _ keeping := by cases keeping
  named _ _ _ there := by cases there

/-- A process between taking a lock and giving it up changes that lock alone. -/
theorem sound_move (sound : Sound pid inPlace names s) (alive : s.life p = .living) {phase : Phase T}
    {lock : Option P} {record : Option (P × List T)}
    (before : s.lock l = none ∨ s.lock l = some p)
    (after : lock = none ∧ phase = .out ∨ lock = some p ∧ phase ≠ .out)
    (own : ∀ text, phase = .keeping text → names l p text)
    (stays : ∀ q written, q ≠ p → record = some (q, written) → s.record l = some (q, written))
    (keeps : ∀ written, record = some (p, written) →
      phase.keeps = true ∧ ∃ text, names l p text ∧ written <+: text ∧ (inPlace l ∨ written = text)) :
    Sound pid inPlace names (s.move l p phase lock record) := by
  have free : ∀ q, q ≠ p → s.phase l q = .out := by
    intro q other
    by_contra holds
    have held := (sound.holder l q).mpr holds
    obtain none | own := before
    · rw [none] at held
      cases held
    · exact other (Option.some.inj (held.symm.trans own))
  refine ⟨fun k q => ?_, fun k q => ?_, sound.distinct, fun k q written => ?_,
    fun k q written => ?_, fun k q text => ?_, fun k q written => ?_⟩
  · have holder := sound.holder k q
    simp only [lock_move, phase_move]
    grind
  · have living := sound.living k q
    simp only [life_move, phase_move]
    grind
  · have born := sound.born k q written
    simp only [life_move, record_move]
    grind
  · have author := sound.author k q written
    simp only [life_move, record_move, phase_move]
    grind
  · have before := sound.own k q text
    simp only [phase_move]
    grind
  · have named := sound.named k q written
    simp only [record_move]
    grind

theorem sound_step (sound : Sound pid inPlace names s) (step : Step pid inPlace names s t) :
    Sound pid inPlace names t := by
  have alive : ∀ {l p}, s.phase l p ≠ .out → s.life p = .living := @(sound.living)
  have held : ∀ {l p}, s.phase l p ≠ .out → s.lock l = some p := fun {l p} => (sound.holder l p).mpr
  cases step with
  | born p new free =>
    refine ⟨sound.holder, fun k q holds => ?_, fun q r => ?_, fun k q written there => ?_,
      fun k q written there => ?_, sound.own, sound.named⟩
    · have living := sound.living k q holds
      grind [life_become]
    · have distinct := sound.distinct q r
      simp only [life_become]
      grind
    · have born := sound.born k q written there
      simp only [life_become]
      grind
    · have author := sound.author k q written there
      have born := sound.born k q written there
      simp only [life_become, phase_become]
      grind
  | take l p living out free =>
    refine sound_move sound living (.inl free) (.inr ⟨rfl, nofun⟩) nofun (fun _ _ _ => id)
      fun written there => ?_
    have keeps := sound.author l p written there living
    rw [out] at keeps
    cases keeps
  | create l p text writes own locked =>
    have holds : s.phase l p ≠ .out := by rw [locked]; nofun
    refine sound_move sound (alive holds) (.inr (held holds)) (.inr ⟨held holds, nofun⟩)
      (fun _ same => by cases same; exact own) (fun q written other there => ?_)
      fun written there => ?_
    · cases there
      exact absurd rfl other
    · cases there
      exact ⟨rfl, text, own, List.nil_prefix, .inl writes⟩
  | append l p text written more writes keeping there next =>
    have holds : s.phase l p ≠ .out := by rw [keeping]; nofun
    refine sound_move sound (alive holds) (.inr (held holds)) (.inr ⟨held holds, nofun⟩)
      (fun _ same => ?_) (fun q written other there => ?_) fun written there => ?_
    · cases same
      exact sound.own l p text keeping
    · cases there
      exact absurd rfl other
    · cases there
      exact ⟨rfl, text, sound.own l p text keeping, next, .inl writes⟩
  | replace l p text own locked =>
    have holds : s.phase l p ≠ .out := by rw [locked]; nofun
    refine sound_move sound (alive holds) (.inr (held holds)) (.inr ⟨held holds, nofun⟩)
      (fun _ same => by cases same; exact own) (fun q written other there => ?_)
      fun written there => ?_
    · cases there
      exact absurd rfl other
    · cases there
      exact ⟨rfl, text, own, List.prefix_rfl, .inr rfl⟩
  | unlink l p keeps =>
    have holds : s.phase l p ≠ .out := by
      rintro out
      simp [out, Phase.keeps] at keeps
    exact sound_move sound (alive holds) (.inr (held holds)) (.inr ⟨held holds, nofun⟩)
      nofun (fun _ _ _ there => by cases there) fun _ there => by cases there
  | release l p leaves =>
    have holds : s.phase l p ≠ .out := by
      rintro out
      simp [out] at leaves
    refine sound_move sound (alive holds) (.inr (held holds)) (.inl ⟨rfl, rfl⟩) nofun (fun _ _ _ => id)
      fun written there => ?_
    have keeps := sound.author l p written there (alive holds)
    obtain locked | dropped := leaves
    · rw [locked] at keeps
      cases keeps
    · rw [dropped] at keeps
      cases keeps
  | exits p living =>
    refine ⟨fun k q => ?_, fun k q holds => ?_, fun q r => ?_, fun k q written there => ?_,
      fun k q written there => ?_, fun k q text => ?_, sound.named⟩
    · have holder := sound.holder k q
      have other := sound.holder k p
      simp only [lock_exit, phase_exit]
      grind
    · have before := sound.living k q
      simp only [phase_exit, life_exit] at holds ⊢
      grind
    · have distinct := sound.distinct q r
      simp only [life_exit]
      grind [Life.present]
    · have born := sound.born k q written there
      simp only [life_exit]
      grind
    · have author := sound.author k q written there
      simp only [life_exit, phase_exit]
      grind
    · have before := sound.own k q text
      simp only [phase_exit]
      grind
  | reaped p ended =>
    refine ⟨sound.holder, fun k q holds => ?_, fun q r => ?_, fun k q written there => ?_,
      fun k q written there => ?_, sound.own, sound.named⟩
    · have living := sound.living k q holds
      grind [life_become]
    · have distinct := sound.distinct q r
      simp only [life_become]
      grind [Life.present]
    · have born := sound.born k q written there
      simp only [life_become]
      grind
    · have author := sound.author k q written there
      simp only [life_become, phase_become]
      grind

theorem sound_reaches (sound : Sound pid inPlace names s) (ran : Reaches pid inPlace names s t) :
    Sound pid inPlace names t := by
  induction ran with
  | refl => exact sound
  | tail _ step ih => exact sound_step ih step

/-! ## What a record tells -/

def Life.ended : Life → Bool
  | .zombie | .dead => true
  | _ => false

/-- What has ended does not live again. -/
theorem ended_reaches (ended : (s.life p).ended = true) (ran : Reaches pid inPlace names s t) :
    (t.life p).ended = true := by
  induction ran with
  | refl => exact ended
  | tail _ step ih =>
    cases step with
    | born q new => grind [life_become, Life.ended]
    | exits q living => grind [life_exit, Life.ended]
    | reaped q zombie => grind [life_become, Life.ended]
    | _ => exact ih

/-- The dead do not come back. -/
theorem dead_reaches (dead : s.life p = .dead) (ran : Reaches pid inPlace names s t) :
    t.life p = .dead := by
  induction ran with
  | refl => exact dead
  | tail _ step ih =>
    cases step with
    | born q new => grind [life_become]
    | exits q living => grind [life_exit]
    | reaped q zombie => grind [life_become]
    | _ => exact ih

theorem born_reaches (born : s.life p ≠ .unborn) (ran : Reaches pid inPlace names s t) :
    t.life p ≠ .unborn := by
  induction ran with
  | refl => exact born
  | tail _ step ih =>
    cases step with
    | born q new => grind [life_become]
    | exits q living => grind [life_exit]
    | reaped q zombie => grind [life_become]
    | _ => exact ih

/-- Whoever has a lock is the only one. -/
theorem Sound.exclusive (sound : Sound pid inPlace names s) (first : s.phase l p ≠ .out)
    (second : s.phase l q ≠ .out) : p = q :=
  Option.some.inj (((sound.holder l p).mpr first).symm.trans ((sound.holder l q).mpr second))

/-- Whoever wrote a record and is found alive, then or later, held the lock when it was read. -/
theorem Sound.holder_of_record (sound : Sound pid inPlace names s) {written : List T}
    (read : s.record l = some (p, written)) (ran : Reaches pid inPlace names s t)
    (alive : t.life p = .living) : s.lock l = some p := by
  have living : s.life p = .living := by
    cases life : s.life p with
    | unborn => exact absurd life (sound.born l p written read)
    | living => rfl
    | zombie | dead =>
      have ended := ended_reaches (by rw [life]; rfl) ran
      rw [alive] at ended
      cases ended
  refine (sound.holder l p).mpr fun out => ?_
  have keeps := sound.author l p written read living
  rw [out] at keeps
  cases keeps

/-- Whoever bears the number of a process that was there is it, or was born since. -/
theorem Sound.successor (sound : Sound pid inPlace names s) (there : (s.life p).present = true)
    (ran : Reaches pid inPlace names s t) (bears : (t.life q).present = true)
    (same : pid q = pid p) : q = p ∨ s.life q = .unborn := by
  by_cases present : (s.life q).present = true
  · exact .inl (sound.distinct q p present there same)
  · refine .inr ?_
    cases life : s.life q with
    | unborn => rfl
    | living | zombie => rw [life] at present; exact absurd rfl present
    | dead =>
      rw [dead_reaches life ran] at bears
      cases bears

end AgentRunner.LockRecord
