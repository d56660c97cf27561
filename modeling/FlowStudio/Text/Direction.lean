import FlowStudio.Text.Printable

/-! The directions in which characters run, and the names that keep them apart. -/

namespace FlowStudio.Text

inductive Direction where
  | leftToRight
  | rightToLeft
  /-- A figure as it is written from left to right. -/
  | figure
  /-- A figure as it is written among letters from right to left. -/
  | innerFigure
  | mark
  | neutral
  deriving DecidableEq, Repr

def rightward : Ranges :=
  #[(0x5be, 0x5f4), (0x608, 0x608), (0x60b, 0x60b), (0x60d, 0x60d), (0x61b, 0x64a),
  (0x66d, 0x6d5), (0x6e5, 0x6e6), (0x6ee, 0x6ef), (0x6fa, 0x7f5), (0x7fa, 0x88f), (0x8a0, 0x8c9),
  (0xfb1d, 0xfb28), (0xfb2a, 0xfbc2), (0xfbd3, 0xfd3d), (0xfd50, 0xfd8f), (0xfd92, 0xfdc7),
  (0xfdf0, 0xfdfc), (0xfe70, 0xfefc), (0x10800, 0x1091b), (0x10920, 0x10b35), (0x10b40, 0x10d2f),
  (0x10d4a, 0x10d6d), (0x10d6f, 0x10e5f), (0x10e80, 0x10ed0), (0x10f00, 0x10fff),
  (0x1e800, 0x1eeef)]

def innerFigures : Ranges :=
  #[(0x660, 0x669), (0x66b, 0x66c), (0x10d30, 0x10d39), (0x10d40, 0x10d49), (0x10e60, 0x10e7e)]

def symbols : Ranges :=
  #[(0xa1, 0xb4), (0xb6, 0xbf), (0xd7, 0xd7), (0xf7, 0xf7), (0x2b9, 0x2ba), (0x2c2, 0x2df),
  (0x606, 0x60f), (0x66a, 0x66a), (0x6de, 0x6e9), (0x7f6, 0x7f9), (0x2010, 0x2070),
  (0x207a, 0x208e), (0x20a0, 0x20cf), (0x2190, 0x2bff), (0x2e00, 0x3004), (0x3008, 0x3020),
  (0xfb29, 0xfb29), (0xfd3e, 0xfd4f), (0xfdcf, 0xfdcf), (0xfdfd, 0xfe6b), (0x1091f, 0x1091f),
  (0x10b39, 0x10b3f), (0x10d6e, 0x10d6e), (0x10ed1, 0x10eff), (0x1eef0, 0x1eef1),
  (0x1f000, 0x1f0ff), (0x1f300, 0x1fbff)]

def Direction.of (c : Char) : Direction :=
  if c.toNat < 0x80 then
    if c.isAlpha then .leftToRight else if c.isDigit then .figure else .neutral
  else if graphemeExtend.has c then .mark
  else if 0x6f0 ≤ c.toNat ∧ c.toNat ≤ 0x6f9 then .figure
  else if innerFigures.has c then .innerFigure
  else if rightward.has c then .rightToLeft
  else if symbols.has c then .neutral
  else .leftToRight

/-- Whether a character stands in names that run from right to left only. -/
def Direction.isRightward (d : Direction) : Bool := d == .rightToLeft || d == .innerFigure

def keepsDirection (name : List Char) : Bool :=
  let row := name.map Direction.of
  let last := (row.reverse.dropWhile (· == .mark)).head?
  match row.head? with
  | none => true
  | some .leftToRight =>
    !row.any (·.isRightward) && (last == some .leftToRight || last == some .figure)
  | some .rightToLeft =>
    !row.contains .leftToRight && last != some .neutral &&
      !(row.contains .figure && row.contains .innerFigure)
  | some _ => false

end FlowStudio.Text
