import Mathlib.Data.Nat.Notation

/-! Runs that save their state on the way and may stop where they have saved it. A run
that is resumed from what was saved ends as one that never stopped when each loop finds
in the state how far it has come. -/

namespace MilkyWay.Foundation

inductive Halt (σ φ : Type*)
  | stopped (saved : σ)
  | failed (left : φ)

inductive Chance
  | pass
  | save
  | stop

abbrev Oracle (σ : Type*) := σ → Chance

abbrev Stoppable (σ φ : Type*) := Oracle σ → σ → Except (Halt σ φ) σ

variable {σ φ : Type*}

def quiet : Oracle σ := fun _ => .pass

def opportunity (save : σ → σ) : Stoppable σ φ := fun o s =>
  match o s with
  | .pass => .ok s
  | .save => .ok (save s)
  | .stop => .error (.stopped (save s))

def Stoppable.andThen (run : Stoppable σ φ) (next : σ → Except (Halt σ φ) σ) : Stoppable σ φ :=
  fun o s => (run o s).bind next

def besideEnd {γ : Type*} (g : γ) :
    Except (Halt σ φ) σ → Except (Halt (σ × γ) (φ × γ)) (σ × γ)
  | .ok t => .ok (t, g)
  | .error (.stopped c) => .error (.stopped (c, g))
  | .error (.failed f) => .error (.failed (f, g))

def Stoppable.beside {γ : Type*} (run : Stoppable σ φ) : Stoppable (σ × γ) (φ × γ) := fun o p =>
  besideEnd p.2 (run (fun s => o (s, p.2)) p.1)

def aloneEnd {γ : Type*} : Except (Halt (σ × γ) φ) (σ × γ) → Except (Halt σ φ) σ
  | .ok p => .ok p.1
  | .error (.stopped p) => .error (.stopped p.1)
  | .error (.failed f) => .error (.failed f)

/-- A run that starts with something beside its state and drops it when it ends. -/
def Stoppable.within {γ : Type*} (g : γ) (run : Stoppable (σ × γ) φ) : Stoppable σ φ := fun o s =>
  aloneEnd (run (fun p => o p.1) (s, g))

def turns {ε : Type*} (body : σ → Except ε σ) : ℕ → σ → Except ε σ
  | 0, s => .ok s
  | n + 1, s => (body s).bind (turns body n)

def forLoop (counter : σ → ℕ) (limit : ℕ) (body : Stoppable σ φ) : Stoppable σ φ :=
  fun o s => turns (body o) (limit - counter s) s

/-- Attempts one after another: each goes on from what the one before it has saved, and
the last one is not stopped. -/
def sessions (run : Stoppable σ φ) (restart : σ → σ) :
    List (Oracle σ) → σ → Except (Halt σ φ) σ
  | [], s => run quiet s
  | o :: os, s => match run o s with
      | .error (.stopped c) => sessions run restart os (restart c)
      | out => out

/-- The states saved where an attempt is stopped have a property. -/
def Restarts (run : Stoppable σ φ) (restart : σ → σ) (P : σ → Prop) :
    List (Oracle σ) → σ → Prop
  | [], _ => True
  | o :: os, s => match run o s with
      | .error (.stopped c) => P c ∧ Restarts run restart P os (restart c)
      | _ => True

instance Restarts.decidable {run : Stoppable σ φ} {restart : σ → σ} {P : σ → Prop}
    [DecidablePred P] : ∀ os s, Decidable (Restarts run restart P os s)
  | [], _ => inferInstanceAs (Decidable True)
  | o :: os, s => match out : run o s with
      | .error (.stopped c) =>
          have : Decidable (Restarts run restart P os (restart c)) :=
            Restarts.decidable os (restart c)
          decidable_of_iff (P c ∧ Restarts run restart P os (restart c))
            (by rw [Restarts, out])
      | .ok _ => isTrue (by rw [Restarts, out]; trivial)
      | .error (.failed _) => isTrue (by rw [Restarts, out]; trivial)

/-! ## Conditions on the end of a run -/

/-- The result, the saved state or the failure is as stated. -/
def Ends (Q S : σ → Prop) (F : φ → Prop) : Except (Halt σ φ) σ → Prop
  | .ok t => Q t
  | .error (.stopped c) => S c
  | .error (.failed f) => F f

section
variable {Q Q' S S' I : σ → Prop} {F F' : φ → Prop}

theorem Ends.mono {x : Except (Halt σ φ) σ} (ends : Ends Q S F x) (result : ∀ t, Q t → Q' t)
    (saved : ∀ c, S c → S' c) (failure : ∀ f, F f → F' f) : Ends Q' S' F' x := by
  match x with
  | .ok t => exact result t ends
  | .error (.stopped c) => exact saved c ends
  | .error (.failed f) => exact failure f ends

theorem Ends.and {x : Except (Halt σ φ) σ} (ends : Ends Q S F x) (ends' : Ends Q' S' F' x) :
    Ends (fun t => Q t ∧ Q' t) (fun c => S c ∧ S' c) (fun f => F f ∧ F' f) x := by
  match x with
  | .ok t => exact ⟨ends, ends'⟩
  | .error (.stopped c) => exact ⟨ends, ends'⟩
  | .error (.failed f) => exact ⟨ends, ends'⟩

theorem Ends.bind {x : Except (Halt σ φ) σ} {next : σ → Except (Halt σ φ) σ}
    (ends : Ends Q S F x) (after : ∀ t, Q t → Ends Q' S F (next t)) :
    Ends Q' S F (x.bind next) := by
  match x with
  | .ok t => exact after t ends
  | .error (.stopped c) => exact ends
  | .error (.failed f) => exact ends

theorem ends_opportunity {save : σ → σ} {s : σ} (o : Oracle σ) (pass : Q s) (saves : Q (save s))
    (stops : S (save s)) : Ends Q S F (opportunity (φ := φ) save o s) := by
  unfold opportunity
  cases o s with
  | pass => exact pass
  | save => exact saves
  | stop => exact stops

theorem ends_beside {γ : Type*} {run : Stoppable σ φ} {o : Oracle (σ × γ)} {p : σ × γ}
    (ends : Ends Q S F (run (fun s => o (s, p.2)) p.1)) :
    Ends (fun t => Q t.1 ∧ t.2 = p.2) (fun c => S c.1 ∧ c.2 = p.2) (fun f => F f.1 ∧ f.2 = p.2)
      (run.beside o p) := by
  unfold Stoppable.beside
  match out : run (fun s => o (s, p.2)) p.1 with
  | .ok t => rw [out] at ends; exact ⟨ends, rfl⟩
  | .error (.stopped c) => rw [out] at ends; exact ⟨ends, rfl⟩
  | .error (.failed f) => rw [out] at ends; exact ⟨ends, rfl⟩

theorem ends_within {γ : Type*} {g : γ} {run : Stoppable (σ × γ) φ} {o : Oracle σ} {s : σ}
    (ends : Ends (fun t => Q t.1) (fun c => S c.1) F (run (fun p => o p.1) (s, g))) :
    Ends Q S F (run.within g o s) := by
  unfold Stoppable.within
  match out : run (fun p => o p.1) (s, g) with
  | .ok t => rw [out] at ends; exact ends
  | .error (.stopped c) => rw [out] at ends; exact ends
  | .error (.failed f) => rw [out] at ends; exact ends

theorem ends_forLoop {counter : σ → ℕ} {limit : ℕ} {body : Stoppable σ φ} {o : Oracle σ}
    (step : ∀ s, I s → counter s < limit →
      Ends (fun t => I t ∧ counter t = counter s + 1) S F (body o s))
    {s : σ} (start : I s) :
    Ends (fun t => I t ∧ limit ≤ counter t) S F (forLoop counter limit body o s) := by
  unfold forLoop
  generalize remaining : limit - counter s = n
  induction n generalizing s with
  | zero => exact ⟨start, by omega⟩
  | succ n ih =>
      have less : counter s < limit := by omega
      refine (step s start less).bind ?_
      rintro t ⟨inv, next⟩
      exact ih inv (by omega)

theorem Restarts.imp {run : Stoppable σ φ} {restart : σ → σ} {P P' : σ → Prop}
    (saves : ∀ o s, I s → Ends (fun _ => True) S (fun _ => True) (run o s))
    (goes : ∀ c, S c → P c → P' c ∧ I (restart c)) {os : List (Oracle σ)} {s : σ} (start : I s)
    (restarts : Restarts run restart P os s) : Restarts run restart P' os s := by
  induction os generalizing s with
  | nil => trivial
  | cons o os ih =>
      have saved := saves o s start
      unfold Restarts at restarts ⊢
      match out : run o s with
      | .ok t => trivial
      | .error (.failed f) => trivial
      | .error (.stopped c) =>
          rw [out] at saved restarts
          obtain ⟨new, again⟩ := goes c saved restarts.1
          exact ⟨new, ih again restarts.2⟩

theorem restarts_of_forall {run : Stoppable σ φ} {restart : σ → σ} {P : σ → Prop}
    (all : ∀ c, P c) (os : List (Oracle σ)) (s : σ) : Restarts run restart P os s := by
  induction os generalizing s with
  | nil => trivial
  | cons o os ih =>
      unfold Restarts
      match run o s with
      | .ok t => trivial
      | .error (.failed f) => trivial
      | .error (.stopped c) => exact ⟨all c, ih (restart c)⟩

theorem ends_sessions {run : Stoppable σ φ} {restart : σ → σ} {P : σ → Prop}
    (attempt : ∀ o s, I s → Ends Q S F (run o s))
    (goes : ∀ c, S c → P c → I (restart c)) {os : List (Oracle σ)} {s : σ} (start : I s)
    (restarts : Restarts run restart P os s) : Ends Q S F (sessions run restart os s) := by
  induction os generalizing s with
  | nil => exact attempt quiet s start
  | cons o os ih =>
      have ends := attempt o s start
      unfold Restarts at restarts
      unfold sessions
      match out : run o s with
      | .ok t => rw [out] at ends; exact ends
      | .error (.failed f) => rw [out] at ends; exact ends
      | .error (.stopped c) =>
          rw [out] at ends restarts
          exact ih (goes c ends restarts.1) restarts.2

end

/-! ## Runs that resume -/

def Agree (Same : σ → σ → Prop) : Except (Halt σ φ) σ → Except (Halt σ φ) σ → Prop
  | .ok t, .ok t' => Same t t'
  | .error (.failed f), .error (.failed f') => f = f'
  | _, _ => False

def Resolves (Same : σ → σ → Prop) (run : Stoppable σ φ) :
    Except (Halt σ φ) σ → Except (Halt σ φ) σ → Prop
  | .error (.stopped c), target => Agree Same (run quiet c) target
  | out, target => Agree Same out target

/-- Stopped or not, a run comes to the end of the run from a state like its own that is
never stopped. -/
structure Resumable (Same : σ → σ → Prop) (run : Stoppable σ φ) : Prop where
  unstopped : ∀ s c, run quiet s ≠ .error (.stopped c)
  resolves : ∀ o s s', Same s s' → Resolves Same run (run o s) (run quiet s')

section
variable {Same : σ → σ → Prop} {x y z : Except (Halt σ φ) σ} {run body : Stoppable σ φ}

theorem Agree.trans (trans : ∀ {r s t}, Same r s → Same s t → Same r t) (first : Agree Same x y)
    (second : Agree Same y z) : Agree Same x z := by
  match x, y, z with
  | .ok _, .ok _, .ok _ => exact trans first second
  | .error (.failed _), .error (.failed _), .error (.failed _) => exact Eq.trans first second

theorem Agree.bind {next next' : σ → Except (Halt σ φ) σ} (agree : Agree Same x y)
    (after : ∀ t t', Same t t' → Agree Same (next t) (next' t')) :
    Agree Same (x.bind next) (y.bind next') := by
  match x, y with
  | .ok t, .ok t' => exact after t t' agree
  | .error (.failed _), .error (.failed _) => exact agree

theorem Resumable.agree (resumable : Resumable Same run) {s s' : σ} (same : Same s s') :
    Agree Same (run quiet s) (run quiet s') := by
  have resolves := resumable.resolves quiet s s' same
  have unstopped := resumable.unstopped s
  match out : run quiet s with
  | .ok t => rw [out] at resolves; exact resolves
  | .error (.failed f) => rw [out] at resolves; exact resolves
  | .error (.stopped c) => exact absurd out (unstopped c)

theorem resumable_opportunity {save : σ → σ} (saves : ∀ s s', Same s s' → Same (save s) s') :
    Resumable Same (opportunity (φ := φ) save) := by
  refine ⟨nofun, fun o s s' same => ?_⟩
  unfold opportunity
  cases o s with
  | pass => exact same
  | save => exact saves s s' same
  | stop => exact saves s s' same

theorem resumable_at {κ : Type*} (key : σ → κ) (run : κ → Stoppable σ φ)
    (resumable : ∀ k, Resumable Same (run k)) (keys : ∀ s s', Same s s' → key s = key s')
    (saved : ∀ o s, Ends (fun _ => True) (fun c => key c = key s) (fun _ => True)
      (run (key s) o s)) :
    Resumable Same (fun o s => run (key s) o s) := by
  refine ⟨fun s c => (resumable (key s)).unstopped s c, fun o s s' same => ?_⟩
  have resolves := (resumable (key s)).resolves o s s' same
  have stays := saved o s
  rw [← keys s s' same]
  match out : run (key s) o s with
  | .ok t => rw [out] at resolves; exact resolves
  | .error (.failed f) => rw [out] at resolves; exact resolves
  | .error (.stopped c) =>
      rw [out] at resolves stays
      change Agree Same (run (key c) quiet c) _
      rw [show key c = key s from stays]
      exact resolves

theorem Agree.map_eq {ρ : Type*} {f : σ → ρ} (agree : Agree Same x y)
    (same : ∀ t t', Same t t' → f t = f t') : x.map f = y.map f := by
  match x, y with
  | .ok t, .ok t' => exact congrArg Except.ok (same t t' agree)
  | .error (.failed _), .error (.failed _) => exact congrArg (Except.error ∘ Halt.failed) agree

theorem Agree.besideEnd {γ : Type*} (agree : Agree Same x y) (g : γ) :
    Agree (fun p q : σ × γ => Same p.1 q.1 ∧ p.2 = q.2) (besideEnd g x) (besideEnd g y) := by
  match x, y with
  | .ok _, .ok _ => exact ⟨agree, rfl⟩
  | .error (.failed _), .error (.failed _) => exact congrArg (Prod.mk · g) agree

theorem Resumable.beside {γ : Type*} (resumable : Resumable Same run) :
    Resumable (fun p q : σ × γ => Same p.1 q.1 ∧ p.2 = q.2) run.beside := by
  constructor
  · intro p c stopped
    unfold Stoppable.beside at stopped
    match out : run quiet p.1 with
    | .ok t => rw [show (fun s => quiet (s, p.2)) = quiet from rfl, out] at stopped; cases stopped
    | .error (.failed f) =>
        rw [show (fun s => quiet (s, p.2)) = quiet from rfl, out] at stopped; cases stopped
    | .error (.stopped d) => exact resumable.unstopped p.1 d out
  · rintro o ⟨s, g⟩ ⟨s', g'⟩ ⟨same, rfl⟩
    have resolves := resumable.resolves (fun s => o (s, g)) s s' same
    unfold Stoppable.beside
    match out : run (fun s => o (s, g)) s with
    | .ok t => rw [out] at resolves; exact resolves.besideEnd g
    | .error (.failed f) => rw [out] at resolves; exact resolves.besideEnd g
    | .error (.stopped c) => rw [out] at resolves; exact resolves.besideEnd g

theorem Resumable.andThen (resumable : Resumable Same run) {next : σ → Except (Halt σ φ) σ}
    (unstopped : ∀ s c, next s ≠ .error (.stopped c))
    (after : ∀ t t', Same t t' → Agree Same (next t) (next t')) :
    Resumable Same (run.andThen next) := by
  constructor
  · intro s c stopped
    unfold Stoppable.andThen at stopped
    match out : run quiet s with
    | .ok t => rw [out] at stopped; exact unstopped t c stopped
    | .error (.failed f) => rw [out] at stopped; cases stopped
    | .error (.stopped d) => exact resumable.unstopped s d out
  · intro o s s' same
    have resolves := resumable.resolves o s s' same
    unfold Stoppable.andThen
    match out : run o s with
    | .ok t =>
        rw [out] at resolves
        have agree := Agree.bind resolves after
        match last : next t with
        | .ok r => rw [Except.bind, last] at agree ⊢; exact agree
        | .error (.failed f) => rw [Except.bind, last] at agree ⊢; exact agree
        | .error (.stopped c) => exact absurd last (unstopped t c)
    | .error (.failed f) => rw [out] at resolves; exact Agree.bind resolves after
    | .error (.stopped c) => rw [out] at resolves; exact Agree.bind resolves after

theorem resumable_forLoop {counter : σ → ℕ} {limit : ℕ} (resumable : Resumable Same body)
    (counts : ∀ s s', Same s s' → counter s = counter s')
    (step : ∀ o s, Ends (fun t => counter t = counter s + 1) (fun c => counter c = counter s)
      (fun _ => True) (body o s)) :
    Resumable Same (forLoop counter limit body) := by
  have unstopped : ∀ n s c, turns (body quiet) n s ≠ .error (.stopped c) := by
    intro n
    induction n with
    | zero => nofun
    | succ n ih =>
        intro s c stopped
        rw [turns] at stopped
        match out : body quiet s with
        | .ok t => rw [out] at stopped; exact ih t c stopped
        | .error (.failed f) => rw [out] at stopped; cases stopped
        | .error (.stopped d) => exact resumable.unstopped s d out
  have agree : ∀ n s s', Same s s' →
      Agree Same (turns (body quiet) n s) (turns (body quiet) n s') := by
    intro n
    induction n with
    | zero => exact fun s s' same => same
    | succ n ih => exact fun s s' same => (resumable.agree same).bind ih
  have resolves : ∀ n o s s', limit - counter s = n → Same s s' →
      Resolves Same (forLoop counter limit body) (turns (body o) n s)
        (turns (body quiet) n s') := by
    intro n
    induction n with
    | zero => exact fun o s s' _ same => same
    | succ n ih =>
        intro o s s' remaining same
        have turned := step o s
        have first := resumable.resolves o s s' same
        rw [turns, turns]
        match out : body o s with
        | .error (.failed f) =>
            rw [out] at first
            exact first.bind (agree n)
        | .error (.stopped c) =>
            rw [out] at first turned
            have again : limit - counter c = n + 1 := by
              rw [show counter c = counter s from turned, remaining]
            change Agree Same (forLoop counter limit body quiet c) _
            rw [forLoop, again]
            exact first.bind (agree n)
        | .ok t =>
            rw [out] at first turned
            have less : limit - counter t = n := by
              have moved : counter t = counter s + 1 := turned
              omega
            match out' : body quiet s' with
            | .ok t' =>
                rw [out'] at first
                exact ih o t t' less first
            | .error (.failed f) => rw [out'] at first; exact first.elim
            | .error (.stopped c) => rw [out'] at first; exact first.elim
  constructor
  · exact fun s => unstopped _ s
  · intro o s s' same
    unfold forLoop
    rw [← counts s s' same]
    exact resolves _ o s s' rfl same

theorem sessions_agree {restart : σ → σ} (trans : ∀ {r s t}, Same r s → Same s t → Same r t)
    (resumable : Resumable Same run) {os : List (Oracle σ)} {s s' : σ} (same : Same s s')
    (restarts : Restarts run restart (fun c => Same (restart c) c) os s) :
    Agree Same (sessions run restart os s) (run quiet s') := by
  induction os generalizing s s' with
  | nil => exact resumable.agree same
  | cons o os ih =>
      have resolves := resumable.resolves o s s' same
      unfold Restarts at restarts
      unfold sessions
      match out : run o s with
      | .ok t => rw [out] at resolves; exact resolves
      | .error (.failed f) => rw [out] at resolves; exact resolves
      | .error (.stopped c) =>
          rw [out] at resolves restarts
          exact (ih restarts.1 restarts.2).trans trans resolves

end

/-! ## Two runs side by side -/

/-- Where one run comes to a result so does the other unless it may end early, and both
results are alike. -/
def Matches (may : Prop) (Alike : σ → σ → Prop) :
    Except (Halt σ φ) σ → Except (Halt σ φ) σ → Prop
  | .ok t, .ok t' => Alike t t'
  | .ok _, .error _ => may
  | .error _, _ => True

section
variable {may : Prop} {Alike Alike' : σ → σ → Prop} {x y : Except (Halt σ φ) σ}

theorem Matches.bind {next next' : σ → Except (Halt σ φ) σ} (pair : Matches may Alike x y)
    (after : ∀ t t', Alike t t' → Matches may Alike' (next t) (next' t')) :
    Matches may Alike' (x.bind next) (y.bind next') := by
  match x, y with
  | .ok t, .ok t' => exact after t t' pair
  | .ok t, .error early =>
      change Matches may Alike' (next t) (.error early)
      match next t with
      | .ok _ => exact pair
      | .error _ => trivial
  | .error _, _ => trivial

theorem matches_opportunity {save : σ → σ} {o o' : Oracle σ} {s s' : σ} (alike : Alike s s')
    (left : ∀ s s', Alike s s' → Alike (save s) s')
    (right : ∀ s s', Alike s s' → Alike s (save s')) (stops : ∀ s, o' s = .stop → may) :
    Matches may Alike (opportunity (φ := φ) save o s) (opportunity save o' s') := by
  have second : ∀ t, Alike t s' → Matches may Alike (.ok t) (opportunity (φ := φ) save o' s') := by
    intro t alike
    unfold opportunity
    match chance : o' s' with
    | .pass => exact alike
    | .save => exact right t s' alike
    | .stop => exact stops s' chance
  conv => enter [3]; unfold opportunity
  cases o s with
  | pass => exact second s alike
  | save => exact second (save s) (left s s' alike)
  | stop => trivial

theorem matches_forLoop {counter : σ → ℕ} {limit : ℕ} {body : Stoppable σ φ} {o o' : Oracle σ}
    (counts : ∀ s s', Alike s s' → counter s = counter s')
    (step : ∀ s s', Alike s s' → Matches may Alike (body o s) (body o' s')) {s s' : σ}
    (alike : Alike s s') :
    Matches may Alike (forLoop counter limit body o s) (forLoop counter limit body o' s') := by
  unfold forLoop
  rw [counts s s' alike]
  generalize limit - counter s' = n
  induction n generalizing s s' with
  | zero => exact alike
  | succ n ih => exact (step s s' alike).bind fun t t' => ih

theorem matches_beside {γ : Type*} {run : Stoppable σ φ} {o o' : Oracle (σ × γ)} {s s' : σ}
    (g : γ) (pair : Matches may Alike (run (fun s => o (s, g)) s) (run (fun s => o' (s, g)) s')) :
    Matches may (fun p q => Alike p.1 q.1 ∧ p.2 = q.2) (run.beside o (s, g))
      (run.beside o' (s', g)) := by
  unfold Stoppable.beside
  match left : run (fun s => o (s, g)) s, right : run (fun s => o' (s, g)) s' with
  | .ok t, .ok t' => rw [left, right] at pair; exact ⟨pair, rfl⟩
  | .ok _, .error (.failed _) => rw [left, right] at pair; exact pair
  | .ok _, .error (.stopped _) => rw [left, right] at pair; exact pair
  | .error (.stopped _), _ => trivial
  | .error (.failed _), _ => trivial

theorem matches_within {γ : Type*} {run : Stoppable (σ × γ) φ} {o o' : Oracle σ} {s s' : σ}
    (g : γ) (pair : Matches may (fun p q => Alike p.1 q.1) (run (fun p => o p.1) (s, g))
      (run (fun p => o' p.1) (s', g))) :
    Matches may Alike (run.within g o s) (run.within g o' s') := by
  unfold Stoppable.within
  match left : run (fun p => o p.1) (s, g), right : run (fun p => o' p.1) (s', g) with
  | .ok t, .ok t' => rw [left, right] at pair; exact pair
  | .ok _, .error (.failed _) => rw [left, right] at pair; exact pair
  | .ok _, .error (.stopped _) => rw [left, right] at pair; exact pair
  | .error (.stopped _), _ => trivial
  | .error (.failed _), _ => trivial

end

end MilkyWay.Foundation
