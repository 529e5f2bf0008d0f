/-!
# Base 64

Octets as letters, digits and two signs: three octets are four characters, and
the last ones are filled up with equality signs.

`length_encode`: the text of `n` octets has four characters for each three begun.
-/

namespace Longform.Text.Base64

/-- The characters of the numbers below 64, in order. -/
def alphabet : List Char :=
  "ABCDEFGHIJKLMNOPQRSTUVWXYZabcdefghijklmnopqrstuvwxyz0123456789+/".toList

/-- The character of a number. -/
def digit (n : Nat) : Char := alphabet.getD (n % 64) '='

/-- Writes octets. -/
def encode : List UInt8 → List Char
  | [] => []
  | [a] =>
    let n := a.toNat * 16
    [digit (n / 64), digit n, '=', '=']
  | [a, b] =>
    let n := (a.toNat * 256 + b.toNat) * 4
    [digit (n / 4096), digit (n / 64), digit n, '=']
  | a :: b :: c :: more =>
    let n := (a.toNat * 256 + b.toNat) * 256 + c.toNat
    digit (n / 262144) :: digit (n / 4096) :: digit (n / 64) :: digit n :: encode more

theorem length_encode (octets : List UInt8) :
    (encode octets).length = 4 * ((octets.length + 2) / 3) := by
  fun_induction encode octets with
  | case1 => rfl
  | case2 => simp
  | case3 => simp
  | case4 a b c more n ih => simp only [List.length_cons, ih]; omega

end Longform.Text.Base64
