import RegionCapture.Picture.Bmp
import RegionCapture.Picture.Dds
import RegionCapture.Picture.Exr
import RegionCapture.Picture.Farbfeld
import RegionCapture.Picture.Gif
import RegionCapture.Picture.Icon
import RegionCapture.Picture.Netpbm
import RegionCapture.Picture.Qoi
import RegionCapture.Picture.Radiance
import RegionCapture.Picture.Targa
import RegionCapture.Picture.Tiff
import RegionCapture.Picture.Webp
import RegionCapture.Png.Decode
/-!
# Picture files

The kinds of files that a frame can be read from. The name of a file tells its kind, whatever is in
it.
-/

namespace RegionCapture.Picture

/-- A kind of picture file. -/
inductive Format where
  | png
  | netpbm
  | farbfeld
  | qoi
  | targa
  | bmp
  | icon
  | radiance
  | exr
  | dds
  | gif
  | tiff
  | webp
  deriving DecidableEq, Repr

namespace Format

/-- The extensions of each kind, in lower case. -/
def extensions : Format → List String
  | png => ["png", "apng"]
  | netpbm => ["pbm", "pgm", "ppm", "pnm", "pam"]
  | farbfeld => ["ff"]
  | qoi => ["qoi"]
  | targa => ["tga"]
  | bmp => ["bmp"]
  | icon => ["ico"]
  | radiance => ["hdr"]
  | exr => ["exr"]
  | dds => ["dds"]
  | gif => ["gif"]
  | tiff => ["tif", "tiff"]
  | webp => ["webp"]

/-- Every kind. -/
def all : List Format :=
  [png, netpbm, farbfeld, qoi, targa, bmp, icon, radiance, exr, dds, gif, tiff, webp]

/-- The kind with an extension, in upper or lower case. -/
def ofExtension? (extension : String) : Option Format :=
  all.find? fun format => format.extensions.contains (String.ofList
    (extension.toList.map Char.toLower))

/-- The picture in a file of a kind. -/
def decode? : Format → ByteArray → Option Frame
  | png => Png.decode?
  | netpbm => Netpbm.decode?
  | farbfeld => Farbfeld.decode?
  | qoi => Qoi.decode?
  | targa => Targa.decode?
  | bmp => Bmp.decode?
  | icon => Icon.decode?
  | radiance => Radiance.decode?
  | exr => Exr.decode?
  | dds => Dds.decode?
  | gif => Gif.decode?
  | tiff => Tiff.decode?
  | webp => Webp.decode?

end Format

end RegionCapture.Picture
