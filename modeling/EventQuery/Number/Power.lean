/-!
Powers of two and ten, as the operation on natural numbers that is computed on
large numbers directly.
-/
namespace EventQuery.Number

def twoTo (n : Nat) : Nat := Nat.pow 2 n

def tenTo (n : Nat) : Nat := Nat.pow 10 n

end EventQuery.Number
