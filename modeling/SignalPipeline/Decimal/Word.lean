/-!
# Sizes of words

Where the 64-bit words of documents, settings and clocks end.
-/

namespace SignalPipeline

/-- Numbers that fit a 64-bit word are below this. -/
def wordLimit : Nat := 0x10000000000000000

/-- Numbers that fit a signed 64-bit word are below this, and not below its negative. -/
def signedLimit : Nat := 0x8000000000000000

end SignalPipeline
