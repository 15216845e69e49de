import DiscogsIngestion.Record.Media

/-!
# The vendored media taxonomy

* `TaxonomyDocument`, `Taxonomy.ofDocument` : the document, and its index;
* `vendoredTaxonomy` : the document as vendored, less what is only for other readers.
-/

namespace DiscogsIngestion.Media

/-- The sections of the document that this producer consumes. -/
structure TaxonomyDocument where
  taxonomyVersion : String
  families : List FamilyDefinition
  media : List MediumDefinition
  formats : List (String × FormatEntry)
  descriptions : List (String × DescriptionRule)

def Taxonomy.ofDocument (document : TaxonomyDocument) : Taxonomy where
  taxonomyVersion := document.taxonomyVersion
  families := Table.collect (fun family => some (family.id, family)) document.families
  media := Table.collect (fun medium => some (medium.id, medium)) document.media
  formats := Table.collect some document.formats
  descriptions := Table.collect some document.descriptions

def vendoredFamilies : List FamilyDefinition := [
  ⟨"vinyl", some ⟨"size_inches",
    Table.collect some [("7", "vinyl_7"), ("10", "vinyl_10"), ("12", "vinyl_12")]⟩⟩,
  ⟨"shellac", some ⟨"size_inches",
    Table.collect some [("7", "shellac_7"), ("10", "shellac_10"), ("12", "shellac_12")]⟩⟩,
  ⟨"grooved_other", none⟩,
  ⟨"tape", none⟩,
  ⟨"optical", none⟩,
  ⟨"digital", none⟩,
  ⟨"video", none⟩,
  ⟨"other", none⟩]

def vendoredMedia : List MediumDefinition := [
  ⟨"vinyl_7", "vinyl", [("size_inches", .number (.integer 7))]⟩,
  ⟨"vinyl_10", "vinyl", [("size_inches", .number (.integer 10))]⟩,
  ⟨"vinyl_12", "vinyl", [("size_inches", .number (.integer 12))]⟩,
  ⟨"vinyl_unspecified", "vinyl", []⟩,
  ⟨"shellac_7", "shellac", [("size_inches", .number (.integer 7)), ("speed_rpm", .number (.integer 78))]⟩,
  ⟨"shellac_10", "shellac", [("size_inches", .number (.integer 10)), ("speed_rpm", .number (.integer 78))]⟩,
  ⟨"shellac_12", "shellac", [("size_inches", .number (.integer 12)), ("speed_rpm", .number (.integer 78))]⟩,
  ⟨"shellac_unspecified", "shellac", [("speed_rpm", .number (.integer 78))]⟩,
  ⟨"grooved_acetate", "grooved_other", []⟩,
  ⟨"grooved_lathe_cut", "grooved_other", []⟩,
  ⟨"grooved_flexi_disc", "grooved_other", []⟩,
  ⟨"grooved_cylinder", "grooved_other", []⟩,
  ⟨"grooved_edison_disc", "grooved_other", []⟩,
  ⟨"grooved_pathe_disc", "grooved_other", []⟩,
  ⟨"grooved_piano_roll", "grooved_other", []⟩,
  ⟨"grooved_other_unspecified", "grooved_other", []⟩,
  ⟨"tape_cassette", "tape", []⟩,
  ⟨"tape_microcassette", "tape", []⟩,
  ⟨"tape_reel_to_reel", "tape", []⟩,
  ⟨"tape_8_track", "tape", []⟩,
  ⟨"tape_4_track", "tape", []⟩,
  ⟨"tape_playtape", "tape", []⟩,
  ⟨"tape_dat", "tape", []⟩,
  ⟨"tape_dcc", "tape", []⟩,
  ⟨"tape_elcaset", "tape", []⟩,
  ⟨"tape_unspecified", "tape", []⟩,
  ⟨"optical_cd", "optical", []⟩,
  ⟨"optical_cdr", "optical", []⟩,
  ⟨"optical_sacd", "optical", []⟩,
  ⟨"optical_dvd_audio", "optical", []⟩,
  ⟨"optical_minidisc", "optical", []⟩,
  ⟨"optical_dualdisc", "optical", []⟩,
  ⟨"optical_umd", "optical", []⟩,
  ⟨"optical_unspecified", "optical", []⟩,
  ⟨"digital_file", "digital", []⟩,
  ⟨"digital_usb", "digital", []⟩,
  ⟨"digital_memory_card", "digital", []⟩,
  ⟨"digital_download_card", "digital", []⟩,
  ⟨"digital_floppy_disk", "digital", []⟩,
  ⟨"digital_unspecified", "digital", []⟩,
  ⟨"video_dvd", "video", []⟩,
  ⟨"video_dvdr", "video", []⟩,
  ⟨"video_blu_ray", "video", []⟩,
  ⟨"video_hd_dvd", "video", []⟩,
  ⟨"video_laserdisc", "video", []⟩,
  ⟨"video_cdv", "video", []⟩,
  ⟨"video_vcd", "video", []⟩,
  ⟨"video_svcd", "video", []⟩,
  ⟨"video_vhs", "video", []⟩,
  ⟨"video_betamax", "video", []⟩,
  ⟨"video_vhd", "video", []⟩,
  ⟨"video_ced", "video", []⟩,
  ⟨"video_film_reel", "video", []⟩,
  ⟨"video_unspecified", "video", []⟩,
  ⟨"other_unspecified", "other", []⟩]

def vendoredFormats : List (String × FormatEntry) := [
  ("4-Track Cartridge", { medium := some "tape_4_track" }),
  ("8-Track Cartridge", { medium := some "tape_8_track" }),
  ("Acetate", { medium := some "grooved_acetate" }),
  ("All Media", { flag := some "all_media" }),
  ("Betacam", { medium := some "video_betamax" }),
  ("Betacam SP", { medium := some "video_betamax" }),
  ("Betamax", { medium := some "video_betamax" }),
  ("Blu-ray", { medium := some "video_blu_ray" }),
  ("Blu-ray-R", { medium := some "video_blu_ray" }),
  ("Box Set", { container := some "box_set" }),
  ("CD", { medium := some "optical_cd" }),
  ("CDV", { medium := some "video_cdv" }),
  ("CDr", { medium := some "optical_cdr" }),
  ("CED", { medium := some "video_ced" }),
  ("Cassette", { medium := some "tape_cassette" }),
  ("Cylinder", { medium := some "grooved_cylinder" }),
  ("DAT", { medium := some "tape_dat" }),
  ("DCC", { medium := some "tape_dcc" }),
  ("DVD", { medium := some "video_dvd" }),
  ("DVD-Audio", { medium := some "optical_dvd_audio" }),
  ("DVDr", { medium := some "video_dvdr" }),
  ("DualDisc", { medium := some "optical_dualdisc" }),
  ("Edison Disc", { medium := some "grooved_edison_disc" }),
  ("Elcaset", { medium := some "tape_elcaset" }),
  ("File", { medium := some "digital_file" }),
  ("Film Reel", { medium := some "video_film_reel" }),
  ("Flexi-disc", { medium := some "grooved_flexi_disc" }),
  ("Floppy Disk", { medium := some "digital_floppy_disk" }),
  ("HD DVD", { medium := some "video_hd_dvd" }),
  ("HD DVD-R", { medium := some "video_hd_dvd" }),
  ("Hybrid", { medium := some "optical_sacd", variant := some "hybrid_layer" }),
  ("Laserdisc", { medium := some "video_laserdisc" }),
  ("Lathe Cut", { medium := some "grooved_lathe_cut" }),
  ("Memory Stick", { medium := some "digital_memory_card" }),
  ("Microcassette", { medium := some "tape_microcassette" }),
  ("MiniDisc", { medium := some "optical_minidisc" }),
  ("Minidisc", { medium := some "optical_minidisc" }),
  ("Pathé Disc", { medium := some "grooved_pathe_disc" }),
  ("PlayTape", { medium := some "tape_playtape" }),
  ("Reel-To-Reel", { medium := some "tape_reel_to_reel" }),
  ("SACD", { medium := some "optical_sacd" }),
  ("SVCD", { medium := some "video_svcd" }),
  ("Shellac", { family := some "shellac" }),
  ("UMD", { medium := some "optical_umd" }),
  ("Ultra HD Blu-ray", { medium := some "video_blu_ray", variant := some "ultra_hd" }),
  ("VCD", { medium := some "video_vcd" }),
  ("VHD", { medium := some "video_vhd" }),
  ("VHS", { medium := some "video_vhs" }),
  ("Video 2000", { medium := some "video_unspecified" }),
  ("Video8", { medium := some "video_unspecified" }),
  ("Vinyl", { family := some "vinyl" })]

def vendoredDescriptions : List (String × DescriptionRule) := [
  ("1 ⅞ ips", ⟨"ignore", .null⟩),
  ("1\"", ⟨"ignore", .null⟩),
  ("10\"", ⟨"size_inches", .number (.integer 10)⟩),
  ("11\"", ⟨"size_inches", .number (.integer 11)⟩),
  ("12\"", ⟨"size_inches", .number (.integer 12)⟩),
  ("128 kbps", ⟨"ignore", .null⟩),
  ("15 ips", ⟨"ignore", .null⟩),
  ("16 Bit", ⟨"ignore", .null⟩),
  ("16 ⅔ RPM", ⟨"speed_rpm", .number (.decimal "16.67")⟩),
  ("16\"", ⟨"size_inches", .number (.integer 16)⟩),
  ("160 kbps", ⟨"ignore", .null⟩),
  ("192 kbps", ⟨"ignore", .null⟩),
  ("24 Bit", ⟨"ignore", .null⟩),
  ("256 kbps", ⟨"ignore", .null⟩),
  ("3 ¾ ips", ⟨"ignore", .null⟩),
  ("3\"", ⟨"size_inches", .number (.integer 3)⟩),
  ("320 kbps", ⟨"ignore", .null⟩),
  ("33 ⅓ RPM", ⟨"speed_rpm", .number (.decimal "33.33")⟩),
  ("45 RPM", ⟨"speed_rpm", .number (.integer 45)⟩),
  ("4K", ⟨"variant", .string "ultra_hd"⟩),
  ("5\"", ⟨"size_inches", .number (.integer 5)⟩),
  ("7 ½ ips", ⟨"ignore", .null⟩),
  ("7\"", ⟨"size_inches", .number (.integer 7)⟩),
  ("78 RPM", ⟨"speed_rpm", .number (.integer 78)⟩),
  ("8 ⅓ RPM", ⟨"speed_rpm", .number (.decimal "8.33")⟩),
  ("8\"", ⟨"size_inches", .number (.integer 8)⟩),
  ("AAC", ⟨"codec", .string "aac"⟩),
  ("AIFF", ⟨"codec", .string "aiff"⟩),
  ("ALAC", ⟨"codec", .string "alac"⟩),
  ("APE", ⟨"codec", .string "ape"⟩),
  ("AVI", ⟨"codec", .string "avi"⟩),
  ("Advance", ⟨"edition", .string "advance"⟩),
  ("Album", ⟨"release_kind", .string "album"⟩),
  ("All Media", ⟨"flag", .string "all_media"⟩),
  ("Ambisonic", ⟨"channels", .string "ambisonic"⟩),
  ("Audiobook", ⟨"trait", .string "audiobook"⟩),
  ("Blu-ray Audio", ⟨"ignore", .null⟩),
  ("Blu-ray-R", ⟨"ignore", .null⟩),
  ("Blu-spec CD", ⟨"variant", .string "blu_spec_cd"⟩),
  ("Blu-spec CD2", ⟨"variant", .string "blu_spec_cd2"⟩),
  ("Box Set", ⟨"container", .string "box_set"⟩),
  ("Business Card", ⟨"packaging", .string "other"⟩),
  ("CD", ⟨"ignore", .null⟩),
  ("CD+G", ⟨"variant", .string "cd_g"⟩),
  ("CD-ROM", ⟨"ignore", .null⟩),
  ("Card Backed", ⟨"packaging", .string "cardboard_sleeve"⟩),
  ("Cassette", ⟨"ignore", .null⟩),
  ("Clear", ⟨"appearance", .string "clear"⟩),
  ("Club Edition", ⟨"edition", .string "club_edition"⟩),
  ("Coloured", ⟨"appearance", .string "coloured"⟩),
  ("Compilation", ⟨"trait", .string "compilation"⟩),
  ("Copy Prot.", ⟨"variant", .string "copy_control"⟩),
  ("DSD", ⟨"codec", .string "dsd"⟩),
  ("DTS", ⟨"variant", .string "dts"⟩),
  ("DTS-HD", ⟨"ignore", .null⟩),
  ("DVD-Data", ⟨"ignore", .null⟩),
  ("DVD-ROM", ⟨"ignore", .null⟩),
  ("DVD-Video", ⟨"ignore", .null⟩),
  ("Data", ⟨"variant", .string "data"⟩),
  ("Deluxe Edition", ⟨"edition", .string "deluxe_edition"⟩),
  ("Demo", ⟨"trait", .string "demo"⟩),
  ("Digibook", ⟨"packaging", .string "digibook"⟩),
  ("Digipak", ⟨"packaging", .string "digipak"⟩),
  ("Digisleeve", ⟨"packaging", .string "digisleeve"⟩),
  ("Dolby Digital", ⟨"ignore", .null⟩),
  ("EP", ⟨"release_kind", .string "ep"⟩),
  ("Enhanced", ⟨"variant", .string "enhanced"⟩),
  ("Etched", ⟨"appearance", .string "etched"⟩),
  ("FLAC", ⟨"codec", .string "flac"⟩),
  ("Gatefold", ⟨"packaging", .string "gatefold"⟩),
  ("HDCD", ⟨"variant", .string "hdcd"⟩),
  ("HQCD", ⟨"variant", .string "hqcd"⟩),
  ("Hybrid", ⟨"variant", .string "hybrid_layer"⟩),
  ("Interview", ⟨"trait", .string "interview"⟩),
  ("Jewel Case", ⟨"packaging", .string "jewel_case"⟩),
  ("Jukebox", ⟨"edition", .string "jukebox"⟩),
  ("LP", ⟨"size_inches", .number (.integer 12)⟩),
  ("Limited Edition", ⟨"edition", .string "limited"⟩),
  ("Live", ⟨"trait", .string "live"⟩),
  ("M4A", ⟨"codec", .string "m4a"⟩),
  ("MKV", ⟨"codec", .string "mkv"⟩),
  ("MOV", ⟨"codec", .string "mov"⟩),
  ("MP3", ⟨"codec", .string "mp3"⟩),
  ("MP4", ⟨"codec", .string "mp4"⟩),
  ("MPEG-4 Video", ⟨"codec", .string "mpeg_4_video"⟩),
  ("Marbled", ⟨"appearance", .string "marbled"⟩),
  ("Maxi-Single", ⟨"release_kind", .string "single"⟩),
  ("Mini", ⟨"variant", .string "mini"⟩),
  ("Mini-Album", ⟨"release_kind", .string "album"⟩),
  ("Minimax", ⟨"variant", .string "minimax"⟩),
  ("Mispress", ⟨"edition", .string "mispress"⟩),
  ("Misprint", ⟨"edition", .string "misprint"⟩),
  ("Mixed", ⟨"trait", .string "mixed"⟩),
  ("Mixed Mode", ⟨"variant", .string "mixed_mode"⟩),
  ("Mixtape", ⟨"trait", .string "mixtape"⟩),
  ("Mono", ⟨"channels", .string "mono"⟩),
  ("Multi-Region", ⟨"ignore", .null⟩),
  ("Multichannel", ⟨"channels", .string "multichannel"⟩),
  ("NTSC", ⟨"ignore", .null⟩),
  ("Numbered", ⟨"edition", .string "numbered"⟩),
  ("OGG", ⟨"codec", .string "ogg"⟩),
  ("Ogg Vorbis", ⟨"codec", .string "ogg"⟩),
  ("Opus", ⟨"codec", .string "opus"⟩),
  ("PAL", ⟨"ignore", .null⟩),
  ("Partially Mixed", ⟨"trait", .string "mixed"⟩),
  ("Partially Unofficial", ⟨"edition", .string "partially_unofficial"⟩),
  ("Picture Disc", ⟨"appearance", .string "picture_disc"⟩),
  ("Promo", ⟨"edition", .string "promo"⟩),
  ("Quadraphonic", ⟨"channels", .string "quadraphonic"⟩),
  ("Record Store Day", ⟨"ignore", .null⟩),
  ("Region 1", ⟨"ignore", .null⟩),
  ("Region 2", ⟨"ignore", .null⟩),
  ("Region 3", ⟨"ignore", .null⟩),
  ("Region 4", ⟨"ignore", .null⟩),
  ("Region 5", ⟨"ignore", .null⟩),
  ("Region 6", ⟨"ignore", .null⟩),
  ("Region Free", ⟨"ignore", .null⟩),
  ("Reissue", ⟨"edition", .string "reissue"⟩),
  ("Remastered", ⟨"edition", .string "remastered"⟩),
  ("Remix", ⟨"trait", .string "remix"⟩),
  ("Repress", ⟨"edition", .string "repress"⟩),
  ("SACD", ⟨"ignore", .null⟩),
  ("SECAM", ⟨"ignore", .null⟩),
  ("SHM-CD", ⟨"variant", .string "shm_cd"⟩),
  ("SHM-SACD", ⟨"variant", .string "shm_sacd"⟩),
  ("Sampler", ⟨"trait", .string "sampler"⟩),
  ("Shape", ⟨"appearance", .string "shape"⟩),
  ("Single", ⟨"release_kind", .string "single"⟩),
  ("Single Sided", ⟨"variant", .string "single_sided"⟩),
  ("Slipcase", ⟨"packaging", .string "slipcase"⟩),
  ("Soundtrack", ⟨"trait", .string "soundtrack"⟩),
  ("Special Edition", ⟨"edition", .string "special_edition"⟩),
  ("Splatter", ⟨"appearance", .string "splatter"⟩),
  ("Spoken Word", ⟨"trait", .string "spokenword"⟩),
  ("Stereo", ⟨"channels", .string "stereo"⟩),
  ("Styrene", ⟨"appearance", .string "styrene"⟩),
  ("Test Pressing", ⟨"edition", .string "test_pressing"⟩),
  ("Transcription", ⟨"trait", .string "transcription"⟩),
  ("Unofficial Release", ⟨"edition", .string "unofficial"⟩),
  ("Vinyl", ⟨"ignore", .null⟩),
  ("WAV", ⟨"codec", .string "wav"⟩),
  ("WMA", ⟨"codec", .string "wma"⟩),
  ("WMV", ⟨"codec", .string "wmv"⟩),
  ("WavPack", ⟨"codec", .string "wavpack"⟩),
  ("White Label", ⟨"edition", .string "white_label"⟩),
  ("¼\"", ⟨"ignore", .null⟩),
  ("½\"", ⟨"ignore", .null⟩)]

def vendoredTaxonomy : TaxonomyDocument where
  taxonomyVersion := "1"
  families := vendoredFamilies
  media := vendoredMedia
  formats := vendoredFormats
  descriptions := vendoredDescriptions

end DiscogsIngestion.Media
