namespace DataPipeline.Word

/-- How many numbers have the given number of bits. -/
def limit (bits : Nat) : Nat := Nat.pow 2 bits

end DataPipeline.Word
