import PatchCanvas.Image

/-!
# PNG files

Writes images as PNG files with eight bits for each channel. The rows are stored without
compression, so the pixels stand in the file as they are; the checksums are those the format asks
for.
-/

namespace PatchCanvas.Png

/-- The four bytes of a number, the highest first. -/
def bigEndian (n : UInt32) : Bytes :=
  #[(n >>> 24).toUInt8, (n >>> 16).toUInt8, (n >>> 8).toUInt8, n.toUInt8]

/-- One byte's worth of polynomial division for the checksum of a chunk. -/
def crcStep (crc : UInt32) : UInt32 :=
  (List.range 8).foldl
    (fun crc _ => if crc &&& 1 = 1 then (crc >>> 1) ^^^ 0xEDB88320 else crc >>> 1) crc

/-- The results of `crcStep` on all bytes. -/
def crcTable : Array UInt32 :=
  Array.ofFn fun i : Fin 256 => crcStep (UInt32.ofNat i.val)

/-- The checksum of a run of bytes after one more byte. -/
def crcByte (crc : UInt32) (byte : UInt8) : UInt32 :=
  crcTable.getD ((crc ^^^ byte.toUInt32) &&& 0xFF).toNat 0 ^^^ (crc >>> 8)

/-- The cyclic redundancy checksum of a chunk. -/
def crc (bytes : Bytes) : UInt32 :=
  bytes.foldl crcByte 0xFFFFFFFF ^^^ 0xFFFFFFFF

/-- The checksum of compressed data: two sums modulo 65521. -/
def adler (bytes : Bytes) : UInt32 :=
  let (low, high) := bytes.foldl
    (fun (low, high) byte =>
      let low := (low + byte.toNat) % 65521
      (low, (high + low) % 65521)) (1, 0)
  UInt32.ofNat (high * 65536 + low)

/-- A chunk: its length, its name, its bytes and their checksum. -/
def chunk (name : String) (data : Bytes) : Bytes :=
  let body := name.toUTF8.data ++ data
  bigEndian (UInt32.ofNat data.size) ++ body ++ bigEndian (crc body)

/-- The largest block that is stored without compression. -/
def maxBlock : Nat := 65535

/-- Block `i` of data that are stored without compression, marked if it is the last one. -/
def block (data : Bytes) (i : Nat) : Bytes :=
  let bytes := data.extract (i * maxBlock) ((i + 1) * maxBlock)
  let final : UInt8 := if i = data.size / maxBlock then 1 else 0
  let low := UInt8.ofNat bytes.size
  let high := UInt8.ofNat (bytes.size / 256)
  #[final, low, high, 255 - low, 255 - high] ++ bytes

/-- Data in the form of a compressed stream. -/
def stored (data : Bytes) : Bytes :=
  let blocks := (Array.range (data.size / maxBlock + 1)).flatMap (block data)
  #[0x78, 0x01] ++ blocks ++ bigEndian (adler data)

/-- The rows of an image, each behind the byte that says that it is not filtered. -/
def rows (image : Image) : Bytes :=
  let bytes := image.toBytes
  let stride := 4 * image.width
  (Array.range image.height).flatMap fun y =>
    #[0] ++ bytes.extract (y * stride) (y * stride + stride)

/-- An image as a file. -/
def encode (image : Image) : Bytes :=
  let signature : Bytes := #[0x89, 0x50, 0x4E, 0x47, 0x0D, 0x0A, 0x1A, 0x0A]
  let header := bigEndian (UInt32.ofNat image.width) ++ bigEndian (UInt32.ofNat image.height) ++
    #[8, 6, 0, 0, 0]
  signature ++ chunk "IHDR" header ++ chunk "IDAT" (stored (rows image)) ++ chunk "IEND" #[]

end PatchCanvas.Png
