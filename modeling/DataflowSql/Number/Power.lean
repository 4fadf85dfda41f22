/-! Powers of the two bases numbers are written in, and the bounds of machine words. -/
namespace DataflowSql.Number

def twoTo (n : Nat) : Nat := Nat.pow 2 n

def tenTo (n : Nat) : Nat := Nat.pow 10 n

/-- One above the greatest word of 64 bits. -/
def wordBound : Nat := twoTo 64

/-- One above the greatest signed word of 64 bits. -/
def signedBound : Nat := twoTo 63

end DataflowSql.Number
