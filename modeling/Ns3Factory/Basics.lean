import Mathlib

/-!
Errors, results and identities.

An identity is a 64-bit number of one domain; values of different domains never mix.
Quantities the code keeps as `double` are rationals. Which of them are finite and what comes of
adding and multiplying them is a parameter of the definitions that ask; where nothing else is
given, the arithmetic is the exact one.
-/

namespace Ns3Factory

inductive ErrorCode
  | kInvalidArgument | kOutOfRange | kOverflow | kNotFound | kAlreadyExists
  | kFailedPrecondition | kUnsupported | kUnavailable | kInternal
  deriving DecidableEq, Repr

structure Error where
  code : ErrorCode
  message : String
  deriving DecidableEq, Repr

abbrev Result (α : Type*) := Except Error α

abbrev Status := Result Unit

/-- The operation succeeded. -/
def Result.succeeded {α : Type*} : Result α → Bool
  | .ok _ => true
  | .error _ => false

@[simp] lemma Result.succeeded_ok {α : Type*} (a : α) :
    Result.succeeded (.ok a : Result α) = true := rfl
@[simp] lemma Result.succeeded_error {α : Type*} (e : Error) :
    Result.succeeded (.error e : Result α) = false := rfl

/-- A `double`: its value, or for an infinity or NaN a rational that is not finite. -/
abbrev Double := ℚ

/-- The arithmetic of `double`. -/
class DoubleArithmetic where
  /-- `std::isfinite` -/
  isfinite : Double → Bool
  /-- `static_cast<double>` of an `int64_t` -/
  toDouble : ℤ → Double
  add : Double → Double → Double
  mul : Double → Double → Double
  div : Double → Double → Double

export DoubleArithmetic (isfinite)

/-- The idealised arithmetic: every value is finite, and every result is the exact one. -/
instance exactArithmetic : DoubleArithmetic where
  isfinite _ := true
  toDouble n := n
  add x y := x + y
  mul x y := x * y
  div x y := x / y

@[simp] lemma isfinite_eq (x : Double) : isfinite x = true := rfl

namespace DoubleArithmetic

@[simp] lemma toDouble_eq (n : ℤ) : toDouble n = n := rfl
@[simp] lemma add_eq (x y : Double) : add x y = x + y := rfl
@[simp] lemma mul_eq (x y : Double) : mul x y = x * y := rfl
@[simp] lemma div_eq (x y : Double) : div x y = x / y := rfl

/-- The largest finite `double`. -/
def kMaxDouble : Double := (2 ^ 53 - 1) * 2 ^ 971

def inRange (x : Double) : Bool := |x| ≤ kMaxDouble

/-- The exact result on finite operands, and one that is not finite on others. -/
def ranged (op : Double → Double → Double) (x y : Double) : Double :=
  if inRange x && inRange y then op x y else kMaxDouble + 1

/-- The exact arithmetic with the range of `double`: what overflows is not finite, and no sum or
product with it is. -/
abbrev rangedArithmetic : DoubleArithmetic where
  isfinite := inRange
  toDouble n := n
  add := ranged fun x y => x + y
  mul := ranged fun x y => x * y
  div := ranged fun x y => x / y

end DoubleArithmetic

/-- A `uint64_t`. -/
abbrev IdentityValue := Fin (2 ^ 64)

instance neZeroIdentityValue : NeZero (2 ^ 64) := ⟨by norm_num⟩

inductive IdentityDomain
  | node | packet | transmission | reception | planningCycle | snapshotVersion
  deriving DecidableEq

structure StrongId (domain : IdentityDomain) where
  value : IdentityValue
  deriving DecidableEq

namespace StrongId

variable {domain : IdentityDomain}

lemma value_injective : Function.Injective (value : StrongId domain → IdentityValue) :=
  fun ⟨_⟩ ⟨_⟩ h => congrArg _ h

instance : LinearOrder (StrongId domain) := LinearOrder.lift' StrongId.value value_injective

lemma lt_iff {a b : StrongId domain} : a < b ↔ a.value < b.value := Iff.rfl

end StrongId

abbrev NodeId := StrongId .node
abbrev PacketId := StrongId .packet
abbrev TransmissionId := StrongId .transmission
abbrev ReceptionId := StrongId .reception
abbrev PlanningCycleId := StrongId .planningCycle
abbrev SnapshotVersion := StrongId .snapshotVersion

/-- The largest `uint64_t`. -/
def maxIdentity : IdentityValue := ⟨2 ^ 64 - 1, by norm_num⟩

/-- `value + 1`, for a value below the largest. -/
def IdentityValue.next (value : IdentityValue) (h : value ≠ maxIdentity) : IdentityValue :=
  ⟨value.val + 1, by
    have h1 := value.isLt
    have h2 : value.val ≠ 2 ^ 64 - 1 := fun e => h (Fin.ext e)
    omega⟩

end Ns3Factory
