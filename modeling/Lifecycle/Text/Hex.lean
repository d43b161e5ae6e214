/-!
# Hexadecimal numbers

Lower-case hexadecimal digits without leading zeros: `hexDigits`, and `hex` with the `0x` mark.
-/

namespace Lifecycle.Text

/-- The digits of `n` to base sixteen, lower case, without leading zeros. -/
def hexDigits (n : Nat) : String := String.ofList (Nat.toDigits 16 n)

/-- `n` to base sixteen behind the mark `0x`. -/
def hex (n : Nat) : String := "0x" ++ hexDigits n

end Lifecycle.Text
