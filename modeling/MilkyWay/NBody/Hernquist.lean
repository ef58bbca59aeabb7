import MilkyWay.Foundation.Extended
import MilkyWay.Foundation.Run
import MilkyWay.NBody.DwarfGenerators

/-! The generator of a Hernquist sphere. A body is put between two radii, of which the outer is
searched outwards from the inner in small steps until it encloses the mass of the bodies so
far and the next. -/

namespace MilkyWay.NBody

open Foundation

structure HernqLib (R : Type) where
  sqrt : R → R
  isinf : R → Bool

/-- The inner radius and the mass of the bodies so far, with what the searches and the turns have
returned. -/
structure HernqState (R : Type) where
  radius : R
  totalMass : R
  radii : List R
  bodies : List (Body R)

section
variable {R : Type} [Zero R] [Add R] [Neg R] [Sub R] [Mul R] [Div R] [OfScientific R]
  [LT R] [DecidableLT R] [LE R] [DecidableLE R] [NatCast R]

def hernqMassInsideRadius (radius radius_scale a mass : R) : R :=
  let radius := radius / radius_scale
  mass * radius * radius / ((a + radius) * (a + radius))

def hernqSearch (goalMass radius a mass : R) : Turn R R := fun test_radius =>
  if goalMass ≤ hernqMassInsideRadius test_radius radius a mass then some (.inr test_radius)
  else some (.inl (test_radius + 0.0001))

/-- The search has no limit; `patience` is that of the model. -/
def hernqNextRadius (patience : ℕ) (startRadius goalMass radius a mass : R) : Option R :=
  (hernqSearch goalMass radius a mass).run patience startRadius

def hernqPickShell (lib : HernqLib R) (stream : ℕ → R) (patience : ℕ) (rad : R) :
    Draw (Vec3 R) := do
  let vec ← tries (do
    let vec ← mwRandomUnitPoint stream
    return if 1.0 < mw_sqrv vec then none else some vec) failure patience
  let rsc := rad / lib.sqrt (mw_sqrv vec)
  return ⟨vec.x * rsc, vec.y * rsc, vec.z * rsc⟩

def hernqRandomR (stream : ℕ → R) (startradius endradius : R) : Draw R := do
  let rnd ← Draw.next stream
  return (endradius - startradius) * rnd + startradius

def hernqCalculateV (lib : HernqLib R) (r radius a mass : R) : R :=
  let mass := hernqMassInsideRadius r radius a mass
  lib.sqrt (mass / r)

def hernqBodyPosition (lib : HernqLib R) (stream : ℕ → R) (patience : ℕ) (rshift : Vec3 R)
    (rsc r : R) : Draw (Vec3 R) := do
  let pos ← hernqPickShell lib stream patience (rsc * r)
  return pos + rshift

def hernqBodyVelocity (lib : HernqLib R) (stream : ℕ → R) (patience : ℕ) (vshift : Vec3 R)
    (r radius a mass : R) : Draw (Vec3 R) := do
  let v := hernqCalculateV lib r radius a mass
  let vel ← hernqPickShell lib stream patience v
  return vel + vshift

structure HernqArgs (R : Type) where
  nbody : ℕ
  mass : R
  ignore : Bool
  rShift : Vec3 R
  vShift : Vec3 R
  radius_scale : R
  a : R

/-- The increase of the mass for each body. -/
def HernqArgs.massEpsilon (args : HernqArgs R) : R := args.mass / (args.nbody : R)

def hernqTurn (lib : HernqLib R) (stream : ℕ → R) (patience : ℕ) (args : HernqArgs R)
    (s : HernqState R) : Draw (HernqState R) := do
  let endradius ← Draw.lift (hernqNextRadius patience s.radius (s.totalMass + args.massEpsilon)
    s.radius args.a args.mass)
  let r ← tries (do
    let r ← hernqRandomR stream s.radius endradius
    return if lib.isinf r then none else some r) failure patience
  let pos ← hernqBodyPosition lib stream patience args.rShift 1.0 r
  let vel ← hernqBodyVelocity lib stream patience args.vShift r args.radius_scale args.a args.mass
  return { radius := endradius
           totalMass := s.totalMass + args.massEpsilon
           radii := s.radii ++ [endradius]
           bodies := s.bodies ++
             [{ type := BODY args.ignore, mass := args.mass / (args.nbody : R), pos, vel }] }

def nbGenerateHernqCore (lib : HernqLib R) (stream : ℕ → R) (patience : ℕ) (args : HernqArgs R) :
    Draw (HernqState R) :=
  (List.range args.nbody).foldlM (fun s _ => hernqTurn lib stream patience args s)
    ⟨0.0, 0.5 * args.massEpsilon, [], []⟩

/-- The searches end for all bodies, at radii in order. -/
def HernqArgs.SearchesEnd (lib : HernqLib R) (stream : ℕ → R) (args : HernqArgs R) : Prop :=
  ∃ patience s k, nbGenerateHernqCore lib stream patience args 0 = some (s, k) ∧
    s.radii.length = args.nbody ∧ s.radii.Pairwise (· ≤ ·)

end

/-! ## The first search -/

section
open Extended Extended.Arithmetic

variable {F : Type} [Field F] [LinearOrder F] [IsStrictOrderedRing F] {m a radius goalMass : F}

omit [IsStrictOrderedRing F] in
theorem hernqMassInsideRadius_zero_scale (mass : 0 < m) (a : F) {radius : F} (nonneg : 0 ≤ radius) :
    hernqMassInsideRadius (fin radius) (fin 0) (fin a) (fin m) = nan := by
  have enclosed : hernqMassInsideRadius (fin radius) (fin 0) (fin a) (fin m) =
      fin m * (fin radius / fin 0) * (fin radius / fin 0) /
        ((fin a + fin radius / fin 0) * (fin a + fin radius / fin 0)) := rfl
  rw [enclosed]
  obtain rfl | positive := nonneg.eq_or_lt
  · rw [zero_div_zero, mul_nan, add_nan, nan_mul, nan_div]
  · rw [fin_div_zero positive, fin_mul_infinity mass, infinity_mul_infinity, fin_add_infinity,
      infinity_mul_infinity, infinity_div_infinity]

theorem hernqNextRadius_zero_scale (mass : 0 < m) (a : F) (goalMass : Extended F) (patience : ℕ) :
    hernqNextRadius patience 0.0 goalMass 0.0 (fin a) (fin m) = none := by
  have zero : (0.0 : Extended F) = fin 0 := congrArg fin (by norm_num)
  rw [zero]
  refine Turn.run_eq_none (fun r => ∃ x : F, 0 ≤ x ∧ r = fin x) ?_ ⟨0, le_rfl, rfl⟩ patience
  rintro _ ⟨x, nonneg, rfl⟩
  refine ⟨fin (x + 0.0001), ⟨x + 0.0001, by positivity, rfl⟩, ?_⟩
  rw [Turn.GoesOn, hernqSearch, hernqMassInsideRadius_zero_scale mass a nonneg]
  cases goalMass <;> exact if_neg id

variable {args : HernqArgs (Extended F)}

theorem nbGenerateHernqCore_none (lib : HernqLib (Extended F)) (stream : ℕ → Extended F)
    (bodies : 1 ≤ args.nbody) (total : args.mass = fin m) (mass : 0 < m)
    (scale : args.a = fin a) (patience k : ℕ) :
    nbGenerateHernqCore lib stream patience args k = none := by
  obtain ⟨n, nbody⟩ := Nat.exists_eq_add_of_le' bodies
  rw [nbGenerateHernqCore, nbody, List.range_succ_eq_map, List.foldlM_cons,
    Option.eq_none_iff_forall_ne_some]
  intro p result
  obtain ⟨s, k', turn, -⟩ := bind_eq_some result
  obtain ⟨endradius, k'', search, -⟩ := bind_eq_some turn
  obtain ⟨found, -⟩ := lift_eq_some search
  rw [total, scale, hernqNextRadius_zero_scale mass] at found
  cases found

/-- The generator never gets past the search for its first body. -/
theorem hernq_searches_never_end (lib : HernqLib (Extended F)) (stream : ℕ → Extended F)
    (bodies : 1 ≤ args.nbody) (total : args.mass = fin m) (mass : 0 < m)
    (scale : args.a = fin a) :
    (∀ patience, hernqNextRadius patience 0.0 (0.5 * args.massEpsilon + args.massEpsilon) 0.0
      args.a args.mass = none) ∧ ¬args.SearchesEnd lib stream := by
  refine ⟨fun patience => ?_, ?_⟩
  · rw [total, scale]
    exact hernqNextRadius_zero_scale mass a _ patience
  · rintro ⟨patience, s, k, ends, -⟩
    rw [nbGenerateHernqCore_none lib stream bodies total mass scale] at ends
    cases ends

end

/-- One body of mass twelve. -/
def oneHernq : HernqArgs (Extended ℚ) where
  nbody := 1
  mass := .fin 12
  ignore := false
  rShift := ⟨.fin 0, .fin 0, .fin 0⟩
  vShift := ⟨.fin 0, .fin 0, .fin 0⟩
  radius_scale := .fin 1
  a := .fin 1

/-- A library for a generator that does not come to need it. -/
def plainHernqLib : HernqLib (Extended ℚ) := ⟨id, fun x => x == .infinity⟩

section
open Extended Extended.Arithmetic

theorem oneHernq_search_never_ends :
    (∀ patience, hernqNextRadius patience 0.0 (0.5 * oneHernq.massEpsilon + oneHernq.massEpsilon)
      0.0 oneHernq.a oneHernq.mass = none) ∧
      ¬oneHernq.SearchesEnd plainHernqLib (fun _ => .fin 0.5) :=
  hernq_searches_never_end plainHernqLib (fun _ => .fin 0.5) le_rfl rfl (by norm_num) rfl

theorem oneHernq_not_searchesEnd :
    ¬oneHernq.SearchesEnd plainHernqLib (fun _ => .fin 0.5) := by
  rintro ⟨patience, s, k, ends, -⟩
  rw [nbGenerateHernqCore_none _ _ le_rfl rfl (by norm_num : (0 : ℚ) < 12) rfl] at ends
  cases ends

end

/-! ## The last search

With a scale that is not zero the last search has no end either: it is for more than the mass
of the sphere. -/

section
variable {F : Type} [Field F] [LinearOrder F] [IsStrictOrderedRing F]
  {radius radius_scale a mass goalMass : F}

theorem hernqMassInsideRadius_lt (total : 0 < mass) (scale : 0 < a) (nonneg : 0 ≤ radius)
    (positive : 0 < radius_scale) : hernqMassInsideRadius radius radius_scale a mass < mass := by
  have scaled : 0 ≤ radius / radius_scale := div_nonneg nonneg positive.le
  have outer : 0 < a + radius / radius_scale := add_pos_of_pos_of_nonneg scale scaled
  rw [hernqMassInsideRadius, div_lt_iff₀ (mul_pos outer outer), mul_assoc]
  refine mul_lt_mul_of_pos_left ?_ total
  nlinarith

theorem hernqNextRadius_beyond (total : 0 < mass) (scale : 0 < a) (positive : 0 < radius_scale)
    (beyond : mass ≤ goalMass) (nonneg : 0 ≤ radius) (patience : ℕ) :
    hernqNextRadius patience radius goalMass radius_scale a mass = none := by
  refine Turn.run_eq_none (0 ≤ ·) (fun r nonneg => ⟨r + 0.0001, by positivity, ?_⟩) nonneg patience
  have less := (hernqMassInsideRadius_lt total scale nonneg positive).trans_le beyond
  exact if_neg (not_le.mpr less)

theorem last_goalMass (total : 0 < mass) {nbody : ℕ} (bodies : 1 ≤ nbody) :
    mass < 0.5 * (mass / nbody) + ((nbody - 1 : ℕ) : F) * (mass / nbody) + mass / nbody := by
  have count : (0 : F) < nbody := Nat.cast_pos.mpr bodies
  have share : 0 < mass / nbody := div_pos total count
  have whole : (nbody : F) * (mass / nbody) = mass := mul_div_cancel₀ mass count.ne'
  rw [Nat.cast_sub bodies, Nat.cast_one]
  linarith

theorem last_search_never_ends (total : 0 < mass) (scale : 0 < a) (positive : 0 < radius_scale)
    {nbody : ℕ} (bodies : 1 ≤ nbody) (nonneg : 0 ≤ radius) (patience : ℕ) :
    hernqNextRadius patience radius
      (0.5 * (mass / nbody) + ((nbody - 1 : ℕ) : F) * (mass / nbody) + mass / nbody)
      radius_scale a mass = none :=
  hernqNextRadius_beyond total scale positive (last_goalMass total bodies).le nonneg patience

end

end MilkyWay.NBody
