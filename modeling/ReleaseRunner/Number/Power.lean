/-!
# Powers of two and ten

The two bases of the number formats. The powers are those of whole numbers by repeated
multiplication, written as functions so that no other meaning of a power can be taken for them.
-/

namespace ReleaseRunner.Number

/-- Two times itself so many times. -/
def twoTo (n : Nat) : Nat := Nat.pow 2 n

/-- Ten times itself so many times. -/
def tenTo (n : Nat) : Nat := Nat.pow 10 n

end ReleaseRunner.Number
