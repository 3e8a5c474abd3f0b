import WireBench.MediaType
import WireBench.Path
import WireBench.Text.LetterCase

/-!
# Media types of extensions

The lookup of a server that runs: a table of common extensions, whose letters match under case
folding.
-/

namespace WireBench.MediaType

def table : List (String × List String) := [
  ("application/atom+xml", ["atom"]),
  ("application/epub+zip", ["epub"]),
  ("application/geo+json", ["geojson"]),
  ("application/gpx+xml", ["gpx"]),
  ("application/gzip", ["gz"]),
  ("application/hyperstudio", ["stk"]),
  ("application/java-archive", ["jar", "war"]),
  ("application/javascript", ["mjs"]),
  ("application/json", ["json", "map"]),
  ("application/ld+json", ["jsonld"]),
  ("application/manifest+json", ["webmanifest"]),
  ("application/msword", ["doc"]),
  ("application/octet-stream", ["bin", "dat", "dmg", "so"]),
  ("application/pdf", ["pdf"]),
  ("application/pgp-signature", ["asc", "sig"]),
  ("application/pkix-cert", ["cer"]),
  ("application/postscript", ["ai", "ps"]),
  ("application/rdf+xml", ["rdf"]),
  ("application/rss+xml", ["rss"]),
  ("application/ssml+xml", ["ssml"]),
  ("application/thraud+xml", ["tfi"]),
  ("application/toml", ["toml"]),
  ("application/vnd.adobe.flash.movie", ["swf"]),
  ("application/vnd.android.package-archive", ["apk"]),
  ("application/vnd.apple.keynote", ["key"]),
  ("application/vnd.apple.pkpass", ["pkpass"]),
  ("application/vnd.debian.binary-package", ["deb"]),
  ("application/vnd.epson.ssf", ["ssf"]),
  ("application/vnd.google-earth.kml+xml", ["kml"]),
  ("application/vnd.google-earth.kmz", ["kmz"]),
  ("application/vnd.kde.kivio", ["flw"]),
  ("application/vnd.lotus-1-2-3", ["123"]),
  ("application/vnd.micrografx.flo", ["flo"]),
  ("application/vnd.microsoft.portable-executable", ["exe"]),
  ("application/vnd.ms-cab-compressed", ["cab"]),
  ("application/vnd.ms-excel", ["xls"]),
  ("application/vnd.ms-fontobject", ["eot"]),
  ("application/vnd.ms-powerpoint", ["ppt"]),
  ("application/vnd.nokia.n-gage.ac+xml", ["ac"]),
  ("application/vnd.nokia.radio-preset", ["rpst"]),
  ("application/vnd.nokia.radio-presets", ["rpss"]),
  ("application/vnd.oasis.opendocument.presentation", ["odp"]),
  ("application/vnd.oasis.opendocument.spreadsheet", ["ods"]),
  ("application/vnd.oasis.opendocument.text", ["odt"]),
  ("application/vnd.openxmlformats-officedocument.presentationml.presentation", ["pptx"]),
  ("application/vnd.openxmlformats-officedocument.spreadsheetml.sheet", ["xlsx"]),
  ("application/vnd.openxmlformats-officedocument.wordprocessingml.document", ["docx"]),
  ("application/vnd.pg.format", ["str"]),
  ("application/vnd.rar", ["rar"]),
  ("application/vnd.sailingtracker.track", ["st"]),
  ("application/vnd.sun.xml.calc.template", ["stc"]),
  ("application/vnd.sun.xml.draw.template", ["std"]),
  ("application/vnd.sun.xml.impress.template", ["sti"]),
  ("application/vnd.sun.xml.writer.template", ["stw"]),
  ("application/vnd.wt.stf", ["stf"]),
  ("application/wasm", ["wasm"]),
  ("application/x-7z-compressed", ["7z"]),
  ("application/x-bittorrent", ["torrent"]),
  ("application/x-bzip", ["bz"]),
  ("application/x-bzip2", ["bz2"]),
  ("application/x-compressed", ["tgz"]),
  ("application/x-iso9660-image", ["iso"]),
  ("application/x-java", ["class"]),
  ("application/x-latex", ["latex"]),
  ("application/x-mobipocket-ebook", ["mobi"]),
  ("application/x-ms-dos-executable", ["dll"]),
  ("application/x-msdownload", ["bat"]),
  ("application/x-msi", ["msi"]),
  ("application/x-perl", ["pl"]),
  ("application/x-php", ["php"]),
  ("application/x-pkcs12", ["p12"]),
  ("application/x-rpm", ["rpm"]),
  ("application/x-shellscript", ["sh"]),
  ("application/x-sql", ["sql"]),
  ("application/x-tar", ["tar"]),
  ("application/x-ustar", ["ustar"]),
  ("application/x-x509-ca-cert", ["crt", "der", "pem"]),
  ("application/x-xfig", ["fig"]),
  ("application/x-xz", ["xz"]),
  ("application/xhtml+xml", ["xhtml"]),
  ("application/xml", ["xml", "xsd"]),
  ("application/xml-dtd", ["dtd"]),
  ("application/xslt+xml", ["xsl", "xslt"]),
  ("application/zip", ["zip"]),
  ("audio/aac", ["aac"]),
  ("audio/flac", ["flac"]),
  ("audio/midi", ["mid", "midi"]),
  ("audio/mp4", ["m4a"]),
  ("audio/mpeg", ["mp3"]),
  ("audio/ogg", ["oga", "ogg", "opus"]),
  ("audio/wav", ["wav"]),
  ("font/otf", ["otf"]),
  ("font/ttf", ["ttf"]),
  ("font/woff", ["woff"]),
  ("font/woff2", ["woff2"]),
  ("image/avif", ["avif"]),
  ("image/bmp", ["bmp"]),
  ("image/gif", ["gif"]),
  ("image/heic", ["heic"]),
  ("image/jp2", ["jp2"]),
  ("image/jpeg", ["jpeg", "jpg"]),
  ("image/jxl", ["jxl"]),
  ("image/png", ["png"]),
  ("image/svg+xml", ["svg", "svgz"]),
  ("image/tiff", ["tif", "tiff"]),
  ("image/vnd.adobe.photoshop", ["psd"]),
  ("image/vnd.fst", ["fst"]),
  ("image/vnd.microsoft.icon", ["ico"]),
  ("image/webp", ["webp"]),
  ("message/rfc822", ["eml"]),
  ("model/gltf+json", ["gltf"]),
  ("model/gltf-binary", ["glb"]),
  ("model/obj", ["obj"]),
  ("model/stl", ["stl"]),
  ("text/cache-manifest", ["appcache", "manifest"]),
  ("text/calendar", ["ics"]),
  ("text/coffeescript", ["coffee"]),
  ("text/css", ["css"]),
  ("text/csv", ["csv"]),
  ("text/html", ["htm", "html", "shtml"]),
  ("text/javascript", ["js", "jsx"]),
  ("text/less", ["less"]),
  ("text/markdown", ["markdown", "md"]),
  ("text/plain", ["cfg", "conf", "cpp", "cs", "h", "ini", "log", "py", "text", "txt"]),
  ("text/rtf", ["rtf"]),
  ("text/sgml", ["sgml"]),
  ("text/tab-separated-values", ["tsv"]),
  ("text/troff", ["t"]),
  ("text/vnd.fmi.flexstor", ["flx"]),
  ("text/x-c", ["c"]),
  ("text/x-handlebars-template", ["hbs"]),
  ("text/x-java-source", ["java"]),
  ("text/x-lua", ["lua"]),
  ("text/x-rust", ["rs"]),
  ("text/x-sass", ["sass"]),
  ("text/x-scss", ["scss"]),
  ("text/x-tex", ["tex"]),
  ("text/x-vcard", ["vcf"]),
  ("text/yaml", ["yaml", "yml"]),
  ("video/3gpp", ["3gp"]),
  ("video/3gpp2", ["3g2"]),
  ("video/mp2t", ["ts"]),
  ("video/mp4", ["mp4"]),
  ("video/mpeg", ["mpeg", "mpg"]),
  ("video/ogg", ["ogv"]),
  ("video/quicktime", ["mov"]),
  ("video/webm", ["webm"]),
  ("video/x-fli", ["fli"]),
  ("video/x-flv", ["flv"]),
  ("video/x-m4v", ["m4v"]),
  ("video/x-matroska", ["mkv"]),
  ("video/x-msvideo", ["avi"])]

def ofExtension? (extension : String) : Option String :=
  (table.find? fun row => row.2.contains extension).map Prod.fst

def byExtension : Lookup := fun name =>
  (Path.extension? name).bind fun extension => ofExtension? (Text.folded extension)

theorem cr_not_mem_of_chars {s : String} {cs : List Char} (hs : s = String.ofList cs)
    (hcs : '\r' ∉ cs) : '\r' ∉ s.toList := by
  rw [hs, String.toList_ofList]
  exact hcs

theorem cr_not_mem_table : ∀ row ∈ table, '\r' ∉ row.1.toList := by
  simp only [table, List.forall_mem_cons]
  and_intros
  all_goals first | exact cr_not_mem_of_chars rfl (by decide) | exact List.forall_mem_nil _

theorem isUnbroken_byExtension : byExtension.IsUnbroken := by
  intro name mediaType h
  obtain ⟨extension, -, hrow⟩ := Option.bind_eq_some_iff.1 h
  obtain ⟨row, hfound, rfl⟩ := Option.map_eq_some_iff.1 hrow
  exact cr_not_mem_table row (List.mem_of_find?_eq_some hfound)

end WireBench.MediaType
