import MilkyWay.NBody.DwarfSampling
import MilkyWay.NBody.DwarfVelocity

/-! The generators of dwarf galaxies. Half of the bodies, rounded down, are light matter
and the others dark; each has its part of the mass of its component, by half of the exact
number. The centre of mass and the momentum are then moved to where they are asked for. -/

namespace MilkyWay.NBody

open Foundation

structure DwarfTables (R : Type) where
  pos : ℕ → Vec3 R
  vel : ℕ → Vec3 R
  masses : ℕ → R

section
variable {R : Type} [Zero R] [Add R] [Neg R] [Sub R] [Mul R] [Div R] [OfScientific R] [BEq R]
  [LT R] [DecidableLT R] [LE R] [DecidableLE R] [NatCast R]

def mwRandomUnitPoint (stream : ℕ → R) : Draw (Vec3 R) := do
  let x ← mwXrandom stream (-1.0) 1.0
  let y ← mwXrandom stream (-1.0) 1.0
  let z ← mwXrandom stream (-1.0) 1.0
  return ⟨x, y, z⟩

def weightedSum (masses : ℕ → R) (table : ℕ → Vec3 R) (start stop : ℕ) : Vec3 R :=
  (List.range' start (stop - start)).foldl (fun cm i =>
    ⟨cm.x + masses i * (table i).x, cm.y + masses i * (table i).y,
      cm.z + masses i * (table i).z⟩) 0

def shiftTable (table : ℕ → Vec3 R) (cm shift : Vec3 R) (start stop i : ℕ) : Vec3 R :=
  if start ≤ i ∧ i < stop then
    ⟨(table i).x - cm.x + shift.x, (table i).y - cm.y + shift.y, (table i).z - cm.z + shift.z⟩
  else table i

/-- The correction of a range of the bodies by a mass. -/
def cm_correction_by_comp (t : DwarfTables R) (rShift vShift : Vec3 R) (comp_mass : R)
    (compStart compEnd : ℕ) : DwarfTables R :=
  let sum := weightedSum t.masses t.pos compStart compEnd
  let sumv := weightedSum t.masses t.vel compStart compEnd
  let cm : Vec3 R := ⟨sum.x / comp_mass, sum.y / comp_mass, sum.z / comp_mass⟩
  let cmv : Vec3 R := ⟨sumv.x / comp_mass, sumv.y / comp_mass, sumv.z / comp_mass⟩
  { t with
    pos := shiftTable t.pos cm rShift compStart compEnd
    vel := shiftTable t.vel cmv vShift compStart compEnd }

def cm_correction (t : DwarfTables R) (rShift vShift : Vec3 R) (dwarf_mass : R) (nbody : ℕ) :
    DwarfTables R :=
  cm_correction_by_comp t rShift vShift dwarf_mass 0 nbody

def BODY (ignore : Bool) : ℤ := if ignore then -1 else 1

def makeBody (t : DwarfTables R) (half_bodies i : ℕ) : Body R :=
  { id := i + 1, type := if i < half_bodies then BODY false else BODY true, mass := t.masses i,
    pos := t.pos i, vel := t.vel i }

/-- A distance and a speed are drawn until they are not zero; after too many tries the
program ends. -/
def drawNonzero (sample : Draw R) : Draw R :=
  tries (do
    let r ← sample
    return if r == 0.0 then none else some r) failure 1001

def drawTables (half_bodies nbody : ℕ) (mass_light_particle mass_dark_particle : R)
    (r_light r_dark : Draw R) (speed : R → Draw R) (get_components : R → Draw (Vec3 R)) :
    Draw (DwarfTables R) :=
  (List.range nbody).foldlM (fun t i => do
    let r ← drawNonzero (if i < half_bodies then r_light else r_dark)
    let v ← drawNonzero (speed r)
    let vel ← get_components v
    let pos ← get_components r
    return { pos := Function.update t.pos i pos
             vel := Function.update t.vel i vel
             masses := Function.update t.masses i
               (if i < half_bodies then mass_light_particle else mass_dark_particle) })
    ⟨fun _ => 0, fun _ => 0, fun _ => 0⟩

/-! ## The mixed dwarf -/

def r_mag (L : DwarfLibm R) (stream : ℕ → R) (comp : Dwarf R) (rho_max bound : R) : Draw R :=
  tries (do
    let r := (← mwXrandom stream 0.0 1.0) * bound
    let u ← mwXrandom stream 0.0 1.0
    let val := r * r * (← Draw.lift (get_density L comp r))
    return if u < val / rho_max then some r else none) (return 0.0) 1001

/-- A direction by rejection from the cube; `patience` limits a loop that has no limit. -/
def get_components (L : Libm R) (stream : ℕ → R) (patience : ℕ) (rad : R) : Draw (Vec3 R) :=
  tries (do
    let vec ← mwRandomUnitPoint stream
    let r_sq := mw_sqrv vec
    let r_scaling := rad / L.sqrt r_sq
    return if 1.0 < r_sq then none
      else some ⟨vec.x * r_scaling, vec.y * r_scaling, vec.z * r_scaling⟩) failure patience

def overComponents (f : Dwarf R → R → Option R) (comp1 comp2 : Dwarf R) (r : R) : R :=
  (f comp1 r).getD 0.0 + (f comp2 r).getD 0.0

def mixedSpeeds (L : DwarfLibm R) (comp1 comp2 : Dwarf R) : SpeedModel R where
  potential := overComponents (get_potential L) comp1 comp2
  density := overComponents (get_density L) comp1 comp2
  isnan r := (r == 0.0) && decide (comp1.type = .nfw ∨ comp2.type = .nfw)
  mass_d := comp2.mass
  rscale_l := comp1.scaleLength
  rscale_d := comp2.scaleLength
  escape v := 0.99 * v
  benchmark := 1.5
  resolution := 10.0
  lowerlimit := 10.0

/-- The bodies and what the two components have become. -/
def nbGenerateMixedDwarfCore (L : DwarfLibm R) (stream : ℕ → R) (patience nbody : ℕ)
    (comp1 comp2 : Dwarf R) (rShift vShift : Vec3 R) :
    Draw (List (Body R) × Dwarf R × Dwarf R) := do
  let rscale_l := comp1.scaleLength
  let rscale_d := comp2.scaleLength
  let (comp1, bound1) ← Draw.lift (boundComponent L (set_p0 L comp1) rscale_l rscale_d)
  let (comp2, bound2) ← Draw.lift (boundComponent L (set_p0 L comp2) rscale_l rscale_d)
  let mass_l := comp1.mass
  let mass_d := comp2.mass
  let half_bodies := nbody / 2
  let mass_light_particle := mass_l / (0.5 * (nbody : R))
  let mass_dark_particle := mass_d / (0.5 * (nbody : R))
  let rho_max_light ← Draw.lift (rho_max L comp1)
  let rho_max_dark ← Draw.lift (rho_max L comp2)
  let t ← drawTables half_bodies nbody mass_light_particle mass_dark_particle
    (r_mag L stream comp1 rho_max_light bound1) (r_mag L stream comp2 rho_max_dark bound2)
    (vel_mag L.toLibm (mixedSpeeds L comp1 comp2) stream) (get_components L.toLibm stream patience)
  let t := cm_correction_by_comp t rShift vShift mass_l 0 half_bodies
  let t := cm_correction_by_comp t rShift vShift mass_d half_bodies nbody
  return ((List.range nbody).map (makeBody t half_bodies), comp1, comp2)

/-! ## The isotropic dwarf -/

namespace Isotropic

structure Args (R : Type) where
  mass_l : R
  mass_d : R
  rscale_l : R
  rscale_d : R

def potential (L : Libm R) (args : Args R) (r : R) : R :=
  let potential_light := args.mass_l / L.sqrt (sqr r + sqr args.rscale_l)
  let potential_dark := args.mass_d / L.sqrt (sqr r + sqr args.rscale_d)
  let potential_result := -(potential_light + potential_dark)
  let psi := -potential_result
  psi

def density (L : DwarfLibm R) (args : Args R) (r : R) : R :=
  let density_light := args.mass_l / cube args.rscale_l *
    minusfivehalves L.toLibm (1.0 + sqr r / sqr args.rscale_l)
  let density_dark := args.mass_d / cube args.rscale_d *
    minusfivehalves L.toLibm (1.0 + sqr r / sqr args.rscale_d)
  3.0 / (4.0 * L.M_PI) * (density_light + density_dark)

def profile_rho (L : DwarfLibm R) (args : Args R) (r : R) : R := r * r * density L args r

def speeds (L : DwarfLibm R) (args : Args R) : SpeedModel R where
  potential := potential L.toLibm args
  density := density L args
  isnan _ := false
  mass_d := args.mass_d
  rscale_l := args.rscale_l
  rscale_d := args.rscale_d
  escape v := v
  benchmark := 1.2
  resolution := 20.0
  lowerlimit := 5.0

def r_mag (L : DwarfLibm R) (stream : ℕ → R) (args : Args R) (rho_max bound : R) : Draw R :=
  tries (do
    let r ← mwXrandom stream 0.0 bound
    let u ← mwXrandom stream 0.0 1.0
    let val := r * r * density L args r
    return if u < val / rho_max then some r else none) (return 0.0) 1001

def get_components (L : DwarfLibm R) (stream : ℕ → R) (rad : R) :
    Draw (Vec3 R) := do
  let theta := L.acos (← mwXrandom stream (-1.0) 1.0)
  let phi := (← mwXrandom stream 0.0 1.0) * 2.0 * L.M_PI
  return ⟨rad * L.sin theta * L.cos phi, rad * L.sin theta * L.sin phi, rad * L.cos theta⟩

end Isotropic

def nbGenerateIsotropicCore (L : DwarfLibm R) (stream : ℕ → R) (nbody : ℕ)
    (mass1 mass2 : R) (rShift vShift : Vec3 R) (radiusScale1 radiusScale2 : R) :
    Draw (List (Body R)) := do
  let dwarf_mass := mass1 + mass2
  let bound := 50.0 * (radiusScale1 + radiusScale2)
  let half_bodies := nbody / 2
  let mass_light_particle := mass1 / (0.5 * (nbody : R))
  let mass_dark_particle := mass2 / (0.5 * (nbody : R))
  let args : Isotropic.Args R := ⟨mass1, mass2, radiusScale1, radiusScale2⟩
  let parameters_light : Isotropic.Args R := { args with mass_d := 0.0 }
  let parameters_dark : Isotropic.Args R := { args with mass_l := 0.0 }
  let rho_max_light := max_finder (Isotropic.profile_rho L parameters_light) 0 radiusScale1
    (2.0 * radiusScale1) 20 1.0e-4
  let rho_max_dark := max_finder (Isotropic.profile_rho L parameters_dark) 0 radiusScale2
    (2.0 * radiusScale2) 20 1.0e-4
  let t ← drawTables half_bodies nbody mass_light_particle mass_dark_particle
    (Isotropic.r_mag L stream parameters_light rho_max_light bound)
    (Isotropic.r_mag L stream parameters_dark rho_max_dark bound)
    (vel_mag L.toLibm (Isotropic.speeds L args) stream) (Isotropic.get_components L stream)
  let t := cm_correction t rShift vShift dwarf_mass nbody
  return (List.range nbody).map (makeBody t half_bodies)

end

end MilkyWay.NBody
