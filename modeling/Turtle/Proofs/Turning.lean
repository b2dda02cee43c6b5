import Turtle.Proofs.Circle
import Turtle.Proofs.Number.Error
import Turtle.Space.Rotation

/-! Rotations about an axis are unit quaternions.
Each step from the axis to the four components is off by one rounding, and a dozen of them stay far
below the tolerance. The exception is an axis whose squared length overflows: its reciprocal is
zero, so there is no vector part, and only the cosine is left. -/
namespace Turtle

open Number (Off)

section Errors

variable {a b c d l m n r s t x y z : ℚ}

theorem abs_le_two (few : t ^ 2 ≤ 4) : |t| ≤ 2 :=
  abs_le_of_sq_le_sq (few.trans (by norm_num)) zero_le_two

/-- A sum of squares, as it is computed. -/
theorem dot_close (first : Off x (a * a)) (second : Off y (b * b)) (third : Off z (c * c))
    (sum : Off s (x + y)) (whole : Off d (s + z)) (nonneg : 0 ≤ x ∧ 0 ≤ y ∧ 0 ≤ z ∧ 0 ≤ s)
    (large : 1 / 2 ^ 50 ≤ d) :
    |d - (a ^ 2 + b ^ 2 + c ^ 2)| ≤ (a ^ 2 + b ^ 2 + c ^ 2) / 2 ^ 21 := by
  obtain ⟨px, py, pz, ps⟩ := nonneg
  unfold Off at *
  rw [abs_of_nonneg (mul_self_nonneg a), ← sq] at first
  rw [abs_of_nonneg (mul_self_nonneg b), ← sq] at second
  rw [abs_of_nonneg (mul_self_nonneg c), ← sq] at third
  rw [abs_of_nonneg (by linarith : 0 ≤ x + y)] at sum
  rw [abs_of_nonneg (by linarith : 0 ≤ s + z)] at whole
  rw [abs_le] at *
  have na := sq_nonneg a
  have nb := sq_nonneg b
  have nc := sq_nonneg c
  constructor <;> linarith

theorem root_close (square : |r ^ 2 - d| ≤ r / 2 ^ 149 + 1 / (2 ^ 149) ^ 2) (nonneg : 0 ≤ r)
    (off : Off l r) (large : 1 / 2 ^ 23 ≤ l) : |l ^ 2 - d| ≤ d / 2 ^ 21 := by
  unfold Off at off
  rw [abs_of_nonneg nonneg] at off
  have wide : 1 / 2 ^ 24 ≤ r := by
    rw [abs_le] at off
    linarith
  have near : |l - r| ≤ r / 2 ^ 23 := off.trans (by linarith)
  have bigger : r / 2 ^ 24 ≤ r ^ 2 := by nlinarith
  have sum : |l + r| ≤ 3 * r := by
    rw [abs_le] at near ⊢
    constructor <;> linarith
  have squares : |l ^ 2 - r ^ 2| ≤ r ^ 2 * 3 / 2 ^ 23 := by
    calc |l ^ 2 - r ^ 2| = |l - r| * |l + r| := by rw [← abs_mul]; ring_nf
      _ ≤ r / 2 ^ 23 * (3 * r) := mul_le_mul near sum (abs_nonneg _) (by positivity)
      _ = r ^ 2 * 3 / 2 ^ 23 := by ring
  rw [abs_le] at *
  constructor <;> linarith

theorem reciprocal_close (off : Off m (1 / l)) (large : 1 / 2 ^ 23 ≤ l) (bounded : l ≤ 2 ^ 65) :
    |(m * l) ^ 2 - 1| ≤ 1 / 2 ^ 21 := by
  have positive : 0 < l := by linarith
  have inverse : 0 < 1 / l := one_div_pos.mpr positive
  have near : |m * l - 1| ≤ 1 / 2 ^ 23 := by
    have scaled : m * l - 1 = (m - 1 / l) * l := by field_simp
    unfold Off at off
    rw [abs_of_pos inverse] at off
    rw [scaled, abs_mul, abs_of_pos positive]
    calc |m - 1 / l| * l ≤ (1 / l / 2 ^ 24 + 1 / 2 ^ 150) * l := by gcongr
      _ = 1 / 2 ^ 24 + l / 2 ^ 150 := by field_simp
      _ ≤ 1 / 2 ^ 23 := by linarith
  have squares := Circle.sq_close (by norm_num) near (abs_one (α := ℚ)).le
  rw [one_pow] at squares
  exact squares.trans (by norm_num)

/-- A vector that is divided by its length. -/
theorem unit_close (dot : |d - n| ≤ n / 2 ^ 21) (root : |l ^ 2 - d| ≤ d / 2 ^ 21)
    (reciprocal : |(m * l) ^ 2 - 1| ≤ 1 / 2 ^ 21) : |n * m ^ 2 - 1| ≤ 1 / 2 ^ 18 := by
  have nonneg := sq_nonneg m
  rw [mul_pow, mul_comm] at reciprocal
  rw [abs_le] at *
  have first := mul_le_mul_of_nonneg_right dot.1 nonneg
  have second := mul_le_mul_of_nonneg_right dot.2 nonneg
  have third := mul_le_mul_of_nonneg_right root.1 nonneg
  have fourth := mul_le_mul_of_nonneg_right root.2 nonneg
  constructor <;> nlinarith

theorem abs_le_two_of_scaled (small : (a ^ 2 + b ^ 2 + c ^ 2) * m ^ 2 ≤ 4) :
    |a * m| ≤ 2 ∧ |b * m| ≤ 2 ∧ |c * m| ≤ 2 := by
  have whole : (a ^ 2 + b ^ 2 + c ^ 2) * m ^ 2 = (a * m) ^ 2 + (b * m) ^ 2 + (c * m) ^ 2 := by ring
  have na := sq_nonneg (a * m)
  have nb := sq_nonneg (b * m)
  have nc := sq_nonneg (c * m)
  exact ⟨abs_le_two (by linarith), abs_le_two (by linarith), abs_le_two (by linarith)⟩

/-- Three numbers that are scaled by a fourth. -/
theorem scaled_close (first : Off x (a * m)) (second : Off y (b * m)) (third : Off z (c * m))
    (small : (a ^ 2 + b ^ 2 + c ^ 2) * m ^ 2 ≤ 4) :
    |x ^ 2 + y ^ 2 + z ^ 2 - (a ^ 2 + b ^ 2 + c ^ 2) * m ^ 2|
      ≤ (a ^ 2 + b ^ 2 + c ^ 2) * m ^ 2 / 2 ^ 22 + 1 / 2 ^ 138 := by
  have whole : (a ^ 2 + b ^ 2 + c ^ 2) * m ^ 2 = (a * m) ^ 2 + (b * m) ^ 2 + (c * m) ^ 2 := by ring
  obtain ⟨sx, sy, sz⟩ := abs_le_two_of_scaled small
  have fx := first.sq_close sx
  have fy := second.sq_close sy
  have fz := third.sq_close sz
  rw [whole]
  rw [abs_le] at *
  constructor <;> linarith

/-- A direction that is scaled by the sine, and the cosine. -/
theorem turned_close {u v w v₁ v₂ v₃ s' c' : ℚ} (unit : |u ^ 2 + v ^ 2 + w ^ 2 - 1| ≤ 1 / 2 ^ 17)
    (circle : |s' ^ 2 + c' ^ 2 - 1| ≤ 1 / 2 ^ 90) (sine : Off s s') (cosine : Off c c')
    (first : Off v₁ (u * s)) (second : Off v₂ (v * s)) (third : Off v₃ (w * s)) :
    |v₁ ^ 2 + v₂ ^ 2 + v₃ ^ 2 + c ^ 2 - 1| ≤ 1 / 10 ^ 5 := by
  have ns := sq_nonneg s'
  have nc := sq_nonneg c'
  rw [abs_le] at circle
  have fs := sine.sq_close (abs_le_two (by linarith))
  have fc := cosine.sq_close (abs_le_two (by linarith))
  rw [abs_le] at fs fc
  have few : s ^ 2 ≤ 2 := by linarith
  have less : |(u ^ 2 + v ^ 2 + w ^ 2) * s ^ 2 - s ^ 2| ≤ 1 / 2 ^ 17 * s ^ 2 := by
    rw [← sub_one_mul, abs_mul, abs_of_nonneg (sq_nonneg s)]
    exact mul_le_mul_of_nonneg_right unit (sq_nonneg s)
  rw [abs_le] at less
  have scaled := scaled_close first second third (by linarith)
  rw [abs_le] at *
  constructor <;> linarith

end Errors

namespace Vec

variable {v : Vec}

theorem isFinite_iff : v.isFinite = true ↔
    v.x.isFinite = true ∧ v.y.isFinite = true ∧ v.z.isFinite = true := by
  simp [isFinite, and_assoc]

theorem unsigned_dot (sound : v.isFinite = true) : (v.dot v).Unsigned := by
  obtain ⟨first, second, third⟩ := isFinite_iff.mp sound
  exact ((Number.unsigned_mul_self first).add (Number.unsigned_mul_self second)).add
    (Number.unsigned_mul_self third)

/-- The squared length as a rational. -/
def normSq (v : Vec) : ℚ := v.x.value ^ 2 + v.y.value ^ 2 + v.z.value ^ 2

theorem dot_near (sound : v.isFinite = true) (finite : (v.dot v).isFinite = true)
    (large : 1 / 2 ^ 50 ≤ (v.dot v).value) :
    |(v.dot v).value - v.normSq| ≤ v.normSq / 2 ^ 21 := by
  obtain ⟨first, second, third⟩ := isFinite_iff.mp sound
  obtain ⟨sum, square''⟩ := Number.isFinite_of_add finite
  obtain ⟨square, square'⟩ := Number.isFinite_of_add sum
  have plain := Number.unsigned_mul_self first
  have plain' := Number.unsigned_mul_self second
  have plain'' := Number.unsigned_mul_self third
  exact dot_close ((Number.Rounded.mul first first).off square)
    ((Number.Rounded.mul second second).off square')
    ((Number.Rounded.mul third third).off square'')
    ((Number.Rounded.add square square').off sum)
    ((Number.Rounded.add sum square'').off finite)
    ⟨plain.value_nonneg, plain'.value_nonneg, plain''.value_nonneg, (plain.add plain').value_nonneg⟩
    large

theorem unsigned_length (sound : v.isFinite = true) : v.length.Unsigned :=
  (unsigned_dot sound).sqrt

theorem length_eq_infinite (sound : v.isFinite = true) (beyond : (v.dot v).isFinite = false) :
    v.length = .infinite false := by
  obtain ⟨code, bounded, same⟩ := unsigned_dot sound
  rw [same] at beyond
  have top : code = Format.single.infinity :=
    Nat.le_antisymm bounded (Nat.le_of_not_lt (of_decide_eq_false beyond))
  subst top
  simp [length, same, Number.sqrt, Number.infinite]

/-- A length that is not too short for a direction. -/
structure Long (l d : ℚ) : Prop where
  large : 1 / 2 ^ 23 ≤ l
  bounded : l ≤ 2 ^ 65
  near : |l ^ 2 - d| ≤ d / 2 ^ 21

theorem length_long (sound : v.isFinite = true) (finite : (v.dot v).isFinite = true)
    (long : ¬v.length ≤ Number.epsilon) :
    v.length.isFinite = true ∧ Long v.length.value (v.dot v).value := by
  have plain := unsigned_dot sound
  have large := (unsigned_length sound).le_value_of_gt_epsilon long
  have proper : (v.dot v).isZero = false := by
    obtain ⟨code, bounded, same⟩ := plain
    rw [length, same] at long
    rw [same]
    apply beq_false_of_ne
    rintro rfl
    rw [Number.epsilon_eq] at long
    simp [Number.sqrt, Number.unsigned_le_iff] at long
  obtain ⟨r, nonneg, rounded, close⟩ := plain.sqrt_rounded finite proper
  have unit : (Format.single.unit : ℚ) = 2 ^ 149 := by
    exact_mod_cast (by decide : Format.single.unit = 2 ^ 149)
  rw [unit] at close
  have fits := (abs_lt.mp (Number.abs_value_lt finite)).2
  have short : |r| ≤ 2 ^ 127 := by
    rw [abs_of_nonneg nonneg]
    by_contra far
    have square := (abs_le.mp close).2
    nlinarith
  obtain ⟨real, off⟩ := rounded.off_of_small short
  have near := root_close close nonneg off large
  refine ⟨real, large, ?_, near⟩
  apply le_of_abs_le
  apply abs_le_of_sq_le_sq _ (by positivity)
  have upper : v.length.value ^ 2 - (v.dot v).value ≤ _ := (abs_le.mp near).2
  linarith

theorem scale_near {s : Single} (sound : v.isFinite = true) (finite : s.isFinite = true)
    (small : v.normSq * s.value ^ 2 ≤ 4) : (v * s).isFinite = true ∧
      Off (v * s).x.value (v.x.value * s.value) ∧ Off (v * s).y.value (v.y.value * s.value) ∧
        Off (v * s).z.value (v.z.value * s.value) := by
  obtain ⟨first, second, third⟩ := isFinite_iff.mp sound
  obtain ⟨sx, sy, sz⟩ := abs_le_two_of_scaled small
  have component {x : Single} (real : x.isFinite = true) (short : |x.value * s.value| ≤ 2) :=
    (Number.Rounded.mul real finite).off_of_small (short.trans (by norm_num))
  obtain ⟨fx, ox⟩ := component first sx
  obtain ⟨fy, oy⟩ := component second sy
  obtain ⟨fz, oz⟩ := component third sz
  exact ⟨isFinite_iff.mpr ⟨fx, fy, fz⟩, ox, oy, oz⟩

/-- A vector that is long enough is divided by its length. -/
theorem direction_near (sound : v.isFinite = true) (finite : (v.dot v).isFinite = true)
    (long : ¬v.length ≤ Number.epsilon) :
    (v * (1 / v.length)).isFinite = true ∧ |(v * (1 / v.length)).normSq - 1| ≤ 1 / 2 ^ 17 := by
  obtain ⟨real, large, bounded, near⟩ := length_long sound finite long
  have positive : 0 < v.length.value := by linarith
  have whole : 1 / 2 ^ 50 ≤ (v.dot v).value := by
    have upper := (abs_le.mp near).2
    nlinarith
  have rounded := Number.Rounded.div Number.value_one.1 real
    (Number.isZero_of_value_ne real positive.ne')
  rw [Number.value_one.2] at rounded
  have short : |1 / v.length.value| ≤ 2 ^ 127 := by
    rw [abs_of_pos (one_div_pos.mpr positive), div_le_iff₀ positive]
    linarith
  obtain ⟨proper, off⟩ := rounded.off_of_small short
  have unit := unit_close (dot_near sound finite whole) near (reciprocal_close off large bounded)
  have small : v.normSq * (1 / v.length).value ^ 2 ≤ 4 := by linarith [(abs_le.mp unit).2]
  obtain ⟨fits, ox, oy, oz⟩ := scale_near sound proper small
  refine ⟨fits, ?_⟩
  have scaled : |(v * (1 / v.length)).normSq - v.normSq * (1 / v.length).value ^ 2|
      ≤ v.normSq * (1 / v.length).value ^ 2 / 2 ^ 22 + 1 / 2 ^ 138 := scaled_close ox oy oz small
  rw [abs_le] at *
  constructor <;> linarith

end Vec

namespace Rotation

variable {axis : Vec} {angle : Single}

/-- The length of a quaternion is one, up to the rounding of the components. -/
structure IsUnit (r : Rotation) : Prop where
  finite : r.x.isFinite = true ∧ r.y.isFinite = true ∧ r.z.isFinite = true ∧ r.w.isFinite = true
  near : |r.x.value ^ 2 + r.y.value ^ 2 + r.z.value ^ 2 + r.w.value ^ 2 - 1| ≤ 1 / 10 ^ 5

theorem isUnit_identity : identity.IsUnit := by
  refine ⟨by decide, ?_⟩
  simp only [identity, Number.zero_eq, Number.value_zero, Number.value_one.2]
  norm_num

/-- Half of an angle, as it is computed. -/
def half (angle : Single) : Single := angle * Number.ofRatio false 1 2

theorem half_isFinite (finite : angle.isFinite = true) : (half angle).isFinite = true := by
  obtain ⟨real, value⟩ := Number.value_half
  have rounded := Number.Rounded.mul finite real
  rw [value] at rounded
  refine (rounded.off_of_small ?_).1
  have small := (Number.abs_value_lt finite).le
  rw [abs_mul, abs_of_pos (by norm_num : (0 : ℚ) < 1 / 2)]
  linarith

/-- The sine and the cosine of a finite angle, rounded from a point next to the circle. -/
theorem exists_sine (finite : angle.isFinite = true) :
    angle.sin.isFinite = true ∧ angle.cos.isFinite = true ∧ ∃ s c : ℚ,
      |s ^ 2 + c ^ 2 - 1| ≤ 1 / 2 ^ 90 ∧ Off angle.sin.value s ∧ Off angle.cos.value c := by
  obtain ⟨p, circle, ⟨s, sine, first⟩, ⟨c, cosine, second⟩⟩ := Circle.exists_point finite
  unfold Circle.OnCircle at circle
  rw [← first, ← second] at circle
  have upper := (abs_le.mp circle).2
  have short {t : ℚ} (few : t ^ 2 ≤ 4) : |t| ≤ 2 ^ 127 := (abs_le_two few).trans (by norm_num)
  obtain ⟨fs, os⟩ := sine.off_of_small (short (by linarith [sq_nonneg c]))
  obtain ⟨fc, oc⟩ := cosine.off_of_small (short (by linarith [sq_nonneg s]))
  exact ⟨fs, fc, s, c, circle, os, oc⟩

/-- The quaternion of a direction and an angle. -/
theorem isUnit_of_direction {unit : Vec} (sound : unit.isFinite = true)
    (direction : |unit.normSq - 1| ≤ 1 / 2 ^ 17) (finite : angle.isFinite = true) :
    IsUnit ⟨unit.x * angle.sin, unit.y * angle.sin, unit.z * angle.sin, angle.cos⟩ := by
  obtain ⟨fs, fc, s, c, circle, sine, cosine⟩ := exists_sine finite
  have small : unit.normSq * angle.sin.value ^ 2 ≤ 4 := by
    have bounded := sine.sq_close (abs_le_two (by linarith [(abs_le.mp circle).2, sq_nonneg c]))
    have few : angle.sin.value ^ 2 ≤ 2 := by
      linarith [(abs_le.mp bounded).2, (abs_le.mp circle).2, sq_nonneg c]
    have upper := (abs_le.mp direction).2
    nlinarith [sq_nonneg angle.sin.value]
  obtain ⟨fits, ox, oy, oz⟩ := Vec.scale_near sound fs small
  obtain ⟨fx, fy, fz⟩ := Vec.isFinite_iff.mp fits
  exact ⟨⟨fx, fy, fz, fc⟩, turned_close direction circle sine cosine ox oy oz⟩

/-- An axis that overflows has no direction: only the cosine is left. -/
theorem isUnit_of_overflow_iff (sound : axis.isFinite = true) (finite : angle.isFinite = true) :
    let unit := axis * (1 / Number.infinite false : Single)
    IsUnit ⟨unit.x * angle.sin, unit.y * angle.sin, unit.z * angle.sin, angle.cos⟩ ↔
      |angle.cos.value ^ 2 - 1| ≤ 1 / 10 ^ 5 := by
  intro unit
  have zero : (1 / Number.infinite false : Single) = .zero false := by decide
  have vanish {x y : Single} (first : x.isFinite = true) (second : y.isFinite = true)
      (none : x.value * y.value = 0) : (x * y).isFinite = true ∧ (x * y).value = 0 := by
    have rounded := Number.Rounded.mul first second
    rw [none] at rounded
    exact ⟨(rounded.off_of_small (by norm_num)).1, rounded.value_eq_zero (by decide)⟩
  obtain ⟨fs, fc, -⟩ := exists_sine finite
  have component {x : Single} (real : x.isFinite = true) :
      (x * (1 / Number.infinite false) * angle.sin).isFinite = true ∧
        (x * (1 / Number.infinite false) * angle.sin).value = 0 := by
    rw [zero]
    obtain ⟨fits, value⟩ := vanish real (y := .zero false) (by decide) (by simp)
    exact vanish fits fs (by rw [value, zero_mul])
  obtain ⟨first, second, third⟩ := Vec.isFinite_iff.mp sound
  have near : |(unit.x * angle.sin).value ^ 2 + (unit.y * angle.sin).value ^ 2
      + (unit.z * angle.sin).value ^ 2 + angle.cos.value ^ 2 - 1| = |angle.cos.value ^ 2 - 1| := by
    have vx : (unit.x * angle.sin).value = 0 := (component first).2
    have vy : (unit.y * angle.sin).value = 0 := (component second).2
    have vz : (unit.z * angle.sin).value = 0 := (component third).2
    rw [vx, vy, vz]
    ring_nf
  constructor
  · rintro ⟨-, close⟩
    exact near ▸ close
  · intro close
    exact ⟨⟨(component first).1, (component second).1, (component third).1, fc⟩,
      near.trans_le close⟩

/-- A rotation about an axis is a unit quaternion, the identity if the axis is too short, unless the
squared length of the axis overflows. Then it is one only if the cosine of half the angle is nearly
one in magnitude. -/
theorem isUnit_aboutAxis_iff (sound : axis.isFinite = true) (finite : angle.isFinite = true) :
    (axis.length ≤ Number.epsilon → aboutAxis axis angle = identity) ∧
      ((aboutAxis axis angle).IsUnit ↔ (axis.dot axis).isFinite = true ∨
        |(half angle).cos.value ^ 2 - 1| ≤ 1 / 10 ^ 5) := by
  have real : ¬ ¬ angle.isFinite = true := not_not.mpr finite
  have halved := half_isFinite finite
  by_cases short : axis.length ≤ Number.epsilon
  · have still : aboutAxis axis angle = identity := if_pos (.inl short)
    refine ⟨fun _ => still, iff_of_true (still ▸ isUnit_identity) (.inl ?_)⟩
    by_contra beyond
    rw [Vec.length_eq_infinite sound (by simpa using beyond)] at short
    exact absurd short (by decide)
  · refine ⟨fun less => absurd less short, ?_⟩
    have turned : aboutAxis axis angle = _ := if_neg (not_or.mpr ⟨short, real⟩)
    rw [turned]
    by_cases fits : (axis.dot axis).isFinite = true
    · obtain ⟨proper, near⟩ := Vec.direction_near sound fits short
      exact iff_of_true (isUnit_of_direction proper near halved) (.inl fits)
    · have beyond := Vec.length_eq_infinite sound (by simpa using fits)
      rw [beyond]
      exact (isUnit_of_overflow_iff sound halved).trans (by simp [fits])

/-- An axis of length five. -/
theorem slanted_axis_turns : IsUnit (aboutAxis ⟨3, 0, 4⟩ 1) :=
  (isUnit_aboutAxis_iff (by decide) (by decide +kernel)).2.mpr (.inl (by decide +kernel))

/-- Half a turn about an axis of length `10 ^ 30`. -/
theorem huge_axis_gives_no_unit :
    let axis : Vec := ⟨.ofBits 0x7149F2CA, 0, 0⟩
    let angle : Single := .ofBits 0x40490FDB
    axis.isFinite = true ∧ angle.isFinite = true ∧ ¬axis.length ≤ Number.epsilon ∧
      ¬(aboutAxis axis angle).IsUnit := by
  refine ⟨by decide, by decide +kernel, by decide +kernel, ?_⟩
  have turned : aboutAxis ⟨.ofBits 0x7149F2CA, 0, 0⟩ (.ofBits 0x40490FDB)
      = ⟨.zero false, .zero false, .zero false, .signed true 0x333BBD2E (by decide)⟩ := by
    decide +kernel
  rw [turned]
  rintro ⟨-, near⟩
  have unit := Format.single.unit_cast_pos
  have small : (2 * Format.single.quanta 0x333BBD2E : ℚ) ≤ Format.single.unit := by
    exact_mod_cast (by decide : 2 * Format.single.quanta 0x333BBD2E ≤ Format.single.unit)
  have cosine : |(Number.signed true 0x333BBD2E (by decide) : Single).value| ≤ 1 / 2 := by
    rw [Number.abs_value, div_le_div_iff₀ unit two_pos]
    linarith
  have square := sq_le_sq₀ (abs_nonneg _) (by norm_num) |>.mpr cosine
  rw [sq_abs] at square
  simp only [Number.value_zero] at near
  linarith [(abs_le.mp near).1]

end Rotation

end Turtle
