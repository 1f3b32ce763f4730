import BundleForge.FileName
/-!
# MIME types of files

The type of a file is read off its extension, in which ASCII case does not matter.
-/

namespace BundleForge.Mime

def unknown : String := "content/unknown"

def table : List (String × String) :=
  [("png", "image/png"), ("jpg", "image/jpeg"), ("jpeg", "image/jpeg"), ("gif", "image/gif"),
   ("bmp", "image/bmp"), ("ico", "image/x-icon"), ("svg", "image/svg+xml"),
   ("webp", "image/webp"), ("txt", "text/plain"), ("html", "text/html"), ("htm", "text/html"),
   ("css", "text/css"), ("js", "text/javascript"), ("json", "application/json"),
   ("xml", "application/xml"), ("pdf", "application/pdf"), ("woff", "font/woff"),
   ("woff2", "font/woff2"), ("ttf", "font/ttf"), ("otf", "font/otf"), ("wav", "audio/wav"),
   ("mp3", "audio/mpeg"), ("ogg", "audio/ogg"), ("mp4", "video/mp4")]

def ofFileName (fileName : String) : String :=
  ((FileName.extension? fileName).bind (table.lookup ·)).getD unknown

end BundleForge.Mime
