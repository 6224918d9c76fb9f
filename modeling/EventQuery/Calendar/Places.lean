import EventQuery.Calendar.Zone

/-!
The zones that are known when no other table is given, with the changes of their clocks from 1970 to
2037.
-/
namespace EventQuery.TimeZone

/-- Changes given by their instants and the offsets from then on. -/
def changesOf (letters : Int → String) (pairs : List (Int × Int)) : List Change :=
  pairs.map fun (instant, offset) => ⟨instant, offset, letters offset⟩

/-- A short offset: hours, and minutes if there are any. -/
def offsetName (offset : Int) : String :=
  let two (n : Nat) : String := if n < 10 then "0" ++ toString n else toString n
  let minutes := offset.natAbs / 60
  (if offset < 0 then "-" else "+") ++ two (minutes / 60)
    ++ (if minutes % 60 = 0 then "" else two (minutes % 60))

def berlinChanges : List (Int × Int) :=
  [(323830800, 7200), (338950800, 3600), (354675600, 7200), (370400400, 3600), (386125200, 7200),
    (401850000, 3600), (417574800, 7200), (433299600, 3600), (449024400, 7200), (465354000, 3600),
    (481078800, 7200), (496803600, 3600), (512528400, 7200), (528253200, 3600), (543978000, 7200),
    (559702800, 3600), (575427600, 7200), (591152400, 3600), (606877200, 7200), (622602000, 3600),
    (638326800, 7200), (654656400, 3600), (670381200, 7200), (686106000, 3600), (701830800, 7200),
    (717555600, 3600), (733280400, 7200), (749005200, 3600), (764730000, 7200), (780454800, 3600),
    (796179600, 7200), (811904400, 3600), (828234000, 7200), (846378000, 3600), (859683600, 7200),
    (877827600, 3600), (891133200, 7200), (909277200, 3600), (922582800, 7200), (941331600, 3600),
    (954032400, 7200), (972781200, 3600), (985482000, 7200), (1004230800, 3600), (1017536400, 7200),
    (1035680400, 3600), (1048986000, 7200), (1067130000, 3600), (1080435600, 7200),
    (1099184400, 3600), (1111885200, 7200), (1130634000, 3600), (1143334800, 7200),
    (1162083600, 3600), (1174784400, 7200), (1193533200, 3600), (1206838800, 7200),
    (1224982800, 3600), (1238288400, 7200), (1256432400, 3600), (1269738000, 7200),
    (1288486800, 3600), (1301187600, 7200), (1319936400, 3600), (1332637200, 7200),
    (1351386000, 3600), (1364691600, 7200), (1382835600, 3600), (1396141200, 7200),
    (1414285200, 3600), (1427590800, 7200), (1445734800, 3600), (1459040400, 7200),
    (1477789200, 3600), (1490490000, 7200), (1509238800, 3600), (1521939600, 7200),
    (1540688400, 3600), (1553994000, 7200), (1572138000, 3600), (1585443600, 7200),
    (1603587600, 3600), (1616893200, 7200), (1635642000, 3600), (1648342800, 7200),
    (1667091600, 3600), (1679792400, 7200), (1698541200, 3600), (1711846800, 7200),
    (1729990800, 3600), (1743296400, 7200), (1761440400, 3600), (1774746000, 7200),
    (1792890000, 3600), (1806195600, 7200), (1824944400, 3600), (1837645200, 7200),
    (1856394000, 3600), (1869094800, 7200), (1887843600, 3600), (1901149200, 7200),
    (1919293200, 3600), (1932598800, 7200), (1950742800, 3600), (1964048400, 7200),
    (1982797200, 3600), (1995498000, 7200), (2014246800, 3600), (2026947600, 7200),
    (2045696400, 3600), (2058397200, 7200), (2077146000, 3600), (2090451600, 7200),
    (2108595600, 3600), (2121901200, 7200), (2140045200, 3600)]

def newYorkChanges : List (Int × Int) :=
  [(9961200, -14400), (25682400, -18000), (41410800, -14400), (57736800, -18000),
    (73465200, -14400), (89186400, -18000), (104914800, -14400), (120636000, -18000),
    (126687600, -14400), (152085600, -18000), (162370800, -14400), (183535200, -18000),
    (199263600, -14400), (215589600, -18000), (230713200, -14400), (247039200, -18000),
    (262767600, -14400), (278488800, -18000), (294217200, -14400), (309938400, -18000),
    (325666800, -14400), (341388000, -18000), (357116400, -14400), (372837600, -18000),
    (388566000, -14400), (404892000, -18000), (420015600, -14400), (436341600, -18000),
    (452070000, -14400), (467791200, -18000), (483519600, -14400), (499240800, -18000),
    (514969200, -14400), (530690400, -18000), (544604400, -14400), (562140000, -18000),
    (576054000, -14400), (594194400, -18000), (607503600, -14400), (625644000, -18000),
    (638953200, -14400), (657093600, -18000), (671007600, -14400), (688543200, -18000),
    (702457200, -14400), (719992800, -18000), (733906800, -14400), (752047200, -18000),
    (765356400, -14400), (783496800, -18000), (796806000, -14400), (814946400, -18000),
    (828860400, -14400), (846396000, -18000), (860310000, -14400), (877845600, -18000),
    (891759600, -14400), (909295200, -18000), (923209200, -14400), (941349600, -18000),
    (954658800, -14400), (972799200, -18000), (986108400, -14400), (1004248800, -18000),
    (1018162800, -14400), (1035698400, -18000), (1049612400, -14400), (1067148000, -18000),
    (1081062000, -14400), (1099202400, -18000), (1112511600, -14400), (1130652000, -18000),
    (1143961200, -14400), (1162101600, -18000), (1173596400, -14400), (1194156000, -18000),
    (1205046000, -14400), (1225605600, -18000), (1236495600, -14400), (1257055200, -18000),
    (1268550000, -14400), (1289109600, -18000), (1299999600, -14400), (1320559200, -18000),
    (1331449200, -14400), (1352008800, -18000), (1362898800, -14400), (1383458400, -18000),
    (1394348400, -14400), (1414908000, -18000), (1425798000, -14400), (1446357600, -18000),
    (1457852400, -14400), (1478412000, -18000), (1489302000, -14400), (1509861600, -18000),
    (1520751600, -14400), (1541311200, -18000), (1552201200, -14400), (1572760800, -18000),
    (1583650800, -14400), (1604210400, -18000), (1615705200, -14400), (1636264800, -18000),
    (1647154800, -14400), (1667714400, -18000), (1678604400, -14400), (1699164000, -18000),
    (1710054000, -14400), (1730613600, -18000), (1741503600, -14400), (1762063200, -18000),
    (1772953200, -14400), (1793512800, -18000), (1805007600, -14400), (1825567200, -18000),
    (1836457200, -14400), (1857016800, -18000), (1867906800, -14400), (1888466400, -18000),
    (1899356400, -14400), (1919916000, -18000), (1930806000, -14400), (1951365600, -18000),
    (1962860400, -14400), (1983420000, -18000), (1994310000, -14400), (2014869600, -18000),
    (2025759600, -14400), (2046319200, -18000), (2057209200, -14400), (2077768800, -18000),
    (2088658800, -14400), (2109218400, -18000), (2120108400, -14400), (2140668000, -18000)]

def saoPauloChanges : List (Int × Int) :=
  [(499748400, -7200), (511236000, -10800), (530593200, -7200), (540266400, -10800),
    (562129200, -7200), (571197600, -10800), (592974000, -7200), (602042400, -10800),
    (624423600, -7200), (634701600, -10800), (656478000, -7200), (666756000, -10800),
    (687927600, -7200), (697600800, -10800), (719982000, -7200), (728445600, -10800),
    (750826800, -7200), (761709600, -10800), (782276400, -7200), (793159200, -10800),
    (813726000, -7200), (824004000, -10800), (844570800, -7200), (856058400, -10800),
    (876106800, -7200), (888717600, -10800), (908074800, -7200), (919562400, -10800),
    (938919600, -7200), (951616800, -10800), (970974000, -7200), (982461600, -10800),
    (1003028400, -7200), (1013911200, -10800), (1036292400, -7200), (1045360800, -10800),
    (1066532400, -7200), (1076810400, -10800), (1099364400, -7200), (1108864800, -10800),
    (1129431600, -7200), (1140314400, -10800), (1162695600, -7200), (1172368800, -10800),
    (1192330800, -7200), (1203213600, -10800), (1224385200, -7200), (1234663200, -10800),
    (1255834800, -7200), (1266717600, -10800), (1287284400, -7200), (1298167200, -10800),
    (1318734000, -7200), (1330221600, -10800), (1350788400, -7200), (1361066400, -10800),
    (1382238000, -7200), (1392516000, -10800), (1413687600, -7200), (1424570400, -10800),
    (1445137200, -7200), (1456020000, -10800), (1476586800, -7200), (1487469600, -10800),
    (1508036400, -7200), (1518919200, -10800), (1541300400, -7200), (1550368800, -10800)]

def lordHoweChanges : List (Int × Int) :=
  [(352216800, 37800), (372785400, 41400), (384273000, 37800), (404839800, 41400),
    (415722600, 37800), (436289400, 41400), (447172200, 37800), (467739000, 41400),
    (478621800, 37800), (499188600, 39600), (511282800, 37800), (530033400, 39600),
    (542732400, 37800), (562087800, 39600), (574786800, 37800), (594142200, 39600),
    (606236400, 37800), (625591800, 39600), (636476400, 37800), (657041400, 39600),
    (667926000, 37800), (688491000, 39600), (699375600, 37800), (719940600, 39600),
    (731430000, 37800), (751995000, 39600), (762879600, 37800), (783444600, 39600),
    (794329200, 37800), (814894200, 39600), (828198000, 37800), (846343800, 39600),
    (859647600, 37800), (877793400, 39600), (891097200, 37800), (909243000, 39600),
    (922546800, 37800), (941297400, 39600), (953996400, 37800), (967303800, 39600),
    (985446000, 37800), (1004196600, 39600), (1017500400, 37800), (1035646200, 39600),
    (1048950000, 37800), (1067095800, 39600), (1080399600, 37800), (1099150200, 39600),
    (1111849200, 37800), (1130599800, 39600), (1143903600, 37800), (1162049400, 39600),
    (1174748400, 37800), (1193499000, 39600), (1207407600, 37800), (1223134200, 39600),
    (1238857200, 37800), (1254583800, 39600), (1270306800, 37800), (1286033400, 39600),
    (1301756400, 37800), (1317483000, 39600), (1333206000, 37800), (1349537400, 39600),
    (1365260400, 37800), (1380987000, 39600), (1396710000, 37800), (1412436600, 39600),
    (1428159600, 37800), (1443886200, 39600), (1459609200, 37800), (1475335800, 39600),
    (1491058800, 37800), (1506785400, 39600), (1522508400, 37800), (1538839800, 39600),
    (1554562800, 37800), (1570289400, 39600), (1586012400, 37800), (1601739000, 39600),
    (1617462000, 37800), (1633188600, 39600), (1648911600, 37800), (1664638200, 39600),
    (1680361200, 37800), (1696087800, 39600), (1712415600, 37800), (1728142200, 39600),
    (1743865200, 37800), (1759591800, 39600), (1775314800, 37800), (1791041400, 39600),
    (1806764400, 37800), (1822491000, 39600), (1838214000, 37800), (1853940600, 39600),
    (1869663600, 37800), (1885995000, 39600), (1901718000, 37800), (1917444600, 39600),
    (1933167600, 37800), (1948894200, 39600), (1964617200, 37800), (1980343800, 39600),
    (1996066800, 37800), (2011793400, 39600), (2027516400, 37800), (2043243000, 39600),
    (2058966000, 37800), (2075297400, 39600), (2091020400, 37800), (2106747000, 39600),
    (2122470000, 37800), (2138196600, 39600)]

def apiaChanges : List (Int × Int) :=
  [(1285498800, -36000), (1301752800, -39600), (1316872800, -36000), (1325239200, 50400),
    (1333202400, 46800), (1348927200, 50400), (1365256800, 46800), (1380376800, 50400),
    (1396706400, 46800), (1411826400, 50400), (1428156000, 46800), (1443276000, 50400),
    (1459605600, 46800), (1474725600, 50400), (1491055200, 46800), (1506175200, 50400),
    (1522504800, 46800), (1538229600, 50400), (1554559200, 46800), (1569679200, 50400),
    (1586008800, 46800), (1601128800, 50400), (1617458400, 46800)]

def etcUtc : TimeZone := { utc with name := "Etc/UTC" }

def gmt : TimeZone where
  name := "GMT"
  first := ⟨0, "GMT"⟩
  changes := []
  ordered := trivial

def berlin : TimeZone where
  name := "Europe/Berlin"
  first := ⟨3600, "CET"⟩
  changes := changesOf (fun offset => if offset = 3600 then "CET" else "CEST") berlinChanges

def tokyo : TimeZone where
  name := "Asia/Tokyo"
  first := ⟨32400, "JST"⟩
  changes := []
  ordered := trivial

def newYork : TimeZone where
  name := "America/New_York"
  first := ⟨-18000, "EST"⟩
  changes := changesOf (fun offset => if offset = -18000 then "EST" else "EDT") newYorkChanges

def kolkata : TimeZone where
  name := "Asia/Kolkata"
  first := ⟨19800, "IST"⟩
  changes := []
  ordered := trivial

def saoPaulo : TimeZone where
  name := "America/Sao_Paulo"
  first := ⟨-10800, offsetName (-10800)⟩
  changes := changesOf offsetName saoPauloChanges

def kathmandu : TimeZone where
  name := "Asia/Kathmandu"
  first := ⟨19800, offsetName 19800⟩
  changes := changesOf offsetName [(504901800, 20700)]

def lordHowe : TimeZone where
  name := "Australia/Lord_Howe"
  first := ⟨36000, "AEST"⟩
  changes := changesOf (fun offset => if offset = 36000 then "AEST" else offsetName offset)
    lordHoweChanges

def apia : TimeZone where
  name := "Pacific/Apia"
  first := ⟨-39600, offsetName (-39600)⟩
  changes := changesOf offsetName apiaChanges

def all : List TimeZone :=
  [utc, etcUtc, gmt, berlin, tokyo, newYork, kolkata, saoPaulo, kathmandu, lordHowe, apia]

end EventQuery.TimeZone

namespace EventQuery.Places

/-- The table of these zones, for whoever opens it. -/
scoped instance table : ZoneTable :=
  ⟨fun name => TimeZone.all.find? fun zone => zone.name == name⟩

end EventQuery.Places
