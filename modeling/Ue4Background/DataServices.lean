import Ue4Background.DataHandlers
import Ue4Background.Gateway

/-!
The data services: their message types (`proto/*.proto`), their handlers, the commands of the
agent that call them (`service/agent/smartmanagement.lua`, `smartlive.lua`, `unattended.lua`),
and what the gateway writes for a line with such a command. The handlers of `unattended` that
no command calls are left out; those of the doors count what passes, which only shows in
`Env.fiveminIn` and `Env.fiveminOut`.
-/

namespace Ue4Background.DataServices

open LuaValues Protobuf DataHandlers

def required (name : String) (number : ℕ) (kind : Kind) : Member :=
  ⟨bytes name, number, .required, kind⟩

def optional (name : String) (number : ℕ) (kind : Kind) : Member :=
  ⟨bytes name, number, .optional, kind⟩

def wetTempMessage : List Member :=
  [required "record_id" 1 .string, optional "id" 2 .int32, optional "time" 3 .string,
    optional "tempature" 4 .int32, optional "wet" 5 .int32]

def cameraMessage : List Member :=
  [required "record_id" 1 .string, optional "id" 2 .int32, optional "place" 3 .string,
    optional "kind" 4 .string, optional "time" 5 .string, optional "video_address" 6 .string]

def smokeMessage : List Member :=
  [required "record_id" 1 .string, optional "id" 2 .int32, optional "time" 3 .string,
    optional "smoke_data" 4 .int32]

def rescuePlatformMessage : List Member :=
  [required "name" 1 .string, optional "place" 2 .string, optional "status" 3 .string,
    optional "time" 4 .string]

def theftAgainstMessage : List Member :=
  [required "source" 1 .string, optional "info" 2 .string, optional "time" 3 .string]

def propertyGuaranteeMessage : List Member :=
  [required "owner" 1 .string, optional "info" 2 .string, optional "time" 3 .string]

def policeServiceMessage : List Member :=
  [required "type_data" 1 .string, optional "time" 2 .string, optional "place" 3 .int32]

def fireControlMessage : List Member :=
  [required "id" 1 .int32, optional "equipment_address" 2 .string, optional "kind" 3 .string,
    optional "time" 4 .string]

def elevatorMessage : List Member :=
  [required "record_id" 1 .string, optional "id" 2 .int32, optional "kind" 3 .string,
    optional "elevator_address" 4 .string, optional "video_address" 5 .string,
    optional "time" 6 .string]

def equipmentMessage : List Member :=
  [required "record_id" 1 .string, optional "id" 2 .int32, optional "status" 3 .string,
    optional "place" 4 .string, optional "time" 5 .string]

def comfortServiceMessage : List Member :=
  [required "alarm" 1 .string, optional "temp" 2 .int32, optional "wet" 3 .int32]

def comEnvMessage : List Member :=
  [required "id" 1 .int32, optional "time" 2 .string, optional "temp" 3 .int32,
    optional "wet" 4 .int32, optional "pm_ten" 5 .int32, optional "pm_tpf" 6 .int32]

def tempTotalMessage : List Member :=
  [required "time" 1 .string, optional "normal" 2 .int32, optional "abnormal" 3 .int32]

def humantempMessage : List Member :=
  [required "staff_id" 1 .int32, optional "date" 2 .int32, optional "time" 3 .string,
    optional "temp" 4 .int32, optional "place" 5 .string]

def elepowerMessage : List Member :=
  [required "date" 1 .string, optional "day_use" 2 .int32, optional "week_use" 3 .int32,
    optional "month_use" 4 .int32, optional "year_use" 5 .int32]

def waterpowerMessage : List Member :=
  [required "date" 1 .string, optional "day_use" 2 .int32, optional "week_use" 3 .int32,
    optional "month_use" 4 .int32, optional "year_use" 5 .int32]

def garbageMessage : List Member :=
  [required "record_id" 1 .string, optional "id" 2 .int32, optional "place" 3 .string,
    optional "capacity" 4 .int32, optional "clean" 5 .int32, optional "time" 6 .string]

def footTrafficMessage : List Member :=
  [required "in_num" 1 .int32, required "out_num" 2 .int32, optional "trend" 3 .string]

def accessMessage : List Member :=
  [required "record_id" 1 .int32, required "id" 2 .string, optional "monitor_video" 3 .string,
    optional "kind" 4 .string, optional "in_out" 5 .string]

def dateParkingTrafficMessage : List Member :=
  [required "date" 1 .string, required "car_in" 2 .int32, required "car_out" 3 .int32]

/-- The types of `register_file`. -/
def messages : List (Bytes × MessageType) :=
  [(bytes "smart_management.get_wet_temp_record", .flat wetTempMessage),
    (bytes "smart_management.get_ten_wet_temp_records", .records wetTempMessage),
    (bytes "smart_management.get_camera_record", .flat cameraMessage),
    (bytes "smart_management.get_ten_camera_records", .records cameraMessage),
    (bytes "smart_management.get_smoke_record", .flat smokeMessage),
    (bytes "smart_management.get_ten_smoke_records", .records smokeMessage),
    (bytes "smart_management.get_rescue_platform_record", .flat rescuePlatformMessage),
    (bytes "smart_management.get_ten_rescue_platform_records", .records rescuePlatformMessage),
    (bytes "smart_management.get_theft_against_record", .flat theftAgainstMessage),
    (bytes "smart_management.get_ten_theft_against_records", .records theftAgainstMessage),
    (bytes "smart_management.get_property_guarantee_record", .flat propertyGuaranteeMessage),
    (bytes "smart_management.get_ten_property_guarantee_records",
      .records propertyGuaranteeMessage),
    (bytes "smart_management.get_police_service_record", .flat policeServiceMessage),
    (bytes "smart_management.get_ten_police_service_records", .records policeServiceMessage),
    (bytes "smart_management.get_fire_control_record", .flat fireControlMessage),
    (bytes "smart_management.get_ten_fire_control_records", .records fireControlMessage),
    (bytes "smart_management.get_elevator_record", .flat elevatorMessage),
    (bytes "smart_management.get_ten_elevator_records", .records elevatorMessage),
    (bytes "smart_management.get_equipment_record", .flat equipmentMessage),
    (bytes "smart_management.get_comfort_service_record", .flat comfortServiceMessage),
    (bytes "smart_live.get_com_env_record", .flat comEnvMessage),
    (bytes "smart_live.get_ten_com_env_records", .records comEnvMessage),
    (bytes "smart_live.get_temp_total_record", .flat tempTotalMessage),
    (bytes "smart_live.get_ten_temp_total_records", .records tempTotalMessage),
    (bytes "smart_live.get_humantemp_record", .flat humantempMessage),
    (bytes "smart_live.get_elepower_record", .flat elepowerMessage),
    (bytes "smart_live.get_ten_elepower_records", .records elepowerMessage),
    (bytes "smart_live.get_waterpower_record", .flat waterpowerMessage),
    (bytes "smart_live.get_ten_waterpower_records", .records waterpowerMessage),
    (bytes "smart_live.get_garbage_record", .flat garbageMessage),
    (bytes "unattended.Foot_traffic", .flat footTrafficMessage),
    (bytes "unattended.Access_record", .flat accessMessage),
    (bytes "unattended.Last_ten_people_records", .records accessMessage),
    (bytes "unattended.Date_parking_traffic", .flat dateParkingTrafficMessage),
    (bytes "unattended.Last_ten_traffic_records", .records dateParkingTrafficMessage)]

/-- The fields of a registered type. -/
def flat (name : String) : Option (List Member) :=
  match messages.lookup (bytes name) with
  | some (.flat members) => some members
  | _ => none

/-- The fields of the records of a registered type. -/
def item (name : String) : Option (List Member) :=
  match messages.lookup (bytes name) with
  | some (.records members) => some members
  | _ => none

/-- A format with the first parameters of its handler. -/
def query (fmt : String) (n : ℕ) : Query := ⟨bytes fmt, (List.range n).map some⟩

/-- A single row, by format, parameters, message type and copied columns. -/
def get (peek : Bool) (fmt : String) (n : ℕ) (message : String) (columns : List String) :
    Handler :=
  .get peek (query fmt n) (flat message) (columns.map bytes)

/-- Up to ten rows. -/
def getTen (fmt : String) (n : ℕ) (message : String) (columns : List String) : Handler :=
  .getTen (query fmt n) (item message) (columns.map bytes)

/-! `service/smartmanagement/init.lua` -/

def setWetTempRecord : Handler :=
  .set
    (query ("insert into wet_temp_record (record_id,id,time,tempature,wet)" ++
      " values ('%s',%d,'%s',%d,%d)") 5)

def setCameraRecord : Handler :=
  .set
    (query ("insert into camera_record (record_id,id,place,kind,time,video_address)" ++
      " values ('%s',%d,'%s','%s','%s','%s')") 6)

def setSomkeRecord : Handler :=
  .set
    (query "insert into smoke_record (record_id,id,time,smoke_data) values ('%s',%d,'%s',%d)" 4)

def setRescuePlatformRecord : Handler :=
  .set
    (query ("insert into rescue_platform_record (name,place,status,time)" ++
      " values ('%s','%s','%s','%s')") 4)

def setTheftAgainstRecord : Handler :=
  .set (query "insert into rescue_platform_record (source,info,time) values ('%s','%s','%s')" 3)

def setPropertyGuaranteeRecord : Handler :=
  .set (query "insert into property_guarantee_record (owner,info,time) values ('%s','%s','%s')" 3)

def setPoliceServiceRecord : Handler :=
  .set
    (query "insert into police_service_record (type_data,time,place) values ('%s','%s','%s')" 3)

def setFireControlRecord : Handler :=
  .set
    (query ("insert into fire_control_record (id,equipment_address,kind,time)" ++
      " values (%d,'%s','%s','%s')") 4)

def setElevatorRecord : Handler :=
  .set
    (query ("insert into evevator_record (record_id,id,elevator_address,kind,time,video_address)" ++
      " values ('%s',%d,'%s','%s','%s','%s')") 6)

def setEquipmentRecord : Handler :=
  .set
    (query ("insert into equipment_record (record_id,id,place,time,status)" ++
      " values ('%s',%d,'%s','%s','%s')") 5)

def setComfortServiceRecord : Handler :=
  .set (query "insert into comfort_service_record (wet,temp,alarm) values (%d,%d,'%s')" 3)

def getWetTempRecord : Handler :=
  get true "select * from wet_temp_record where record_id = '%s' LIMIT 1" 1
    "smart_management.get_wet_temp_record"
    ["record_id", "id", "time", "tempature", "wet"]

def getTenWetTempRecords : Handler :=
  getTen "select * from wet_temp_record where record_id = '%s' LIMIT 10" 1
    "smart_management.get_ten_wet_temp_records"
    ["record_id", "id", "time", "tempature", "wet"]

def getCameraRecord : Handler :=
  get false "select * from camera_record where record_id = '%s' LIMIT 1" 1
    "smart_management.get_camera_record"
    ["record_id", "id", "place", "time", "kind", "video_address"]

def getTenCameraRecords : Handler :=
  getTen "select * from camera_record where record_id = '%s' LIMIT 10" 1
    "smart_management.get_ten_camera_records"
    ["record_id", "id", "place", "time", "kind", "video_address"]

def getSmokeRecord : Handler :=
  get false "select * from somke_record where record_id = '%s' LIMIT 1" 1
    "smart_management.get_smoke_record"
    ["record_id", "id", "time", "smoke_data"]

def getTenSmokeRecords : Handler :=
  getTen "select * from somke_record where record_id = '%s' LIMIT 10" 1
    "smart_management.get_ten_smoke_records"
    ["record_id", "id", "time", "smoke_data"]

def getRescuePlatformRecord : Handler :=
  get false "select * from rescue_platform_record where name = '%s' LIMIT 1" 1
    "smart_management.get_rescue_platform_record"
    ["name", "time", "place", "status"]

def getTenRescuePlatformRecords : Handler :=
  getTen "select * from rescue_platform_record where name = '%s' LIMIT 10" 1
    "smart_management.get_ten_rescue_platform_records"
    ["name", "time", "place", "status"]

def getTheftAgainstRecord : Handler :=
  get false "select * from theft_against_record where source = '%s' LIMIT 1" 1
    "smart_management.get_theft_against_record"
    ["source", "info", "time"]

def getTenTheftAgainstRecords : Handler :=
  getTen "select * from theft_against_record where source = '%s' LIMIT 10" 1
    "smart_management.get_ten_theft_against_records"
    ["source", "info", "time"]

def getPropertyGuaranteeRecord : Handler :=
  get false "select * from property_guarantee_record where owner = '%s' LIMIT 1" 1
    "smart_management.get_property_guarantee_record"
    ["owner", "info", "time"]

def getTenPropertyGuaranteeRecords : Handler :=
  getTen "select * from property_guarantee_record where owner = '%s' LIMIT 10" 1
    "smart_management.get_ten_property_guarantee_records"
    ["owner", "info", "time"]

def getPoliceServiceRecord : Handler :=
  get false "select * from police_service_record LIMIT 1" 0
    "smart_management.get_police_service_record"
    ["place", "time", "type_data"]

def getTenPoliceServiceRecords : Handler :=
  getTen "select * from property_guarantee_record LIMIT 10" 0
    "smart_management.get_ten_police_service_records"
    ["place", "time", "type_data"]

def getFireControlRecord : Handler :=
  get false "select * from fire_control_record where id = %d LIMIT 1" 1
    "smart_management.get_fire_control_record"
    ["equipment_address", "kind", "id", "time"]

def getTenFireControlRecords : Handler :=
  getTen "select * from fire_control_record where id = %d LIMIT 10" 1
    "smart_management.get_ten_fire_control_records"
    ["equipment_address", "kind", "id", "time"]

def getElevatorRecord : Handler :=
  get false "select * from elevator_record where record_id = '%s' LIMIT 1" 1
    "smart_management.get_elevator_record"
    ["time", "video_address", "elevator_address", "kind", "id", "record_id"]

def getTenElevatorRecords : Handler :=
  getTen "select * from elevator_record where record_id = '%s' LIMIT 10" 1
    "smart_management.get_ten_elevator_records"
    ["time", "video_address", "elevator_address", "kind", "id", "record_id"]

def getEquipmentRecord : Handler :=
  get false "select * from equipment_record where record_id = '%s' LIMIT 1" 1
    "smart_management.get_equipment_record"
    ["record_id", "time", "place", "status", "id"]

def getTenEquipmentRecords : Handler :=
  getTen "select * from equipment_record where record_id = '%s' LIMIT 10" 1
    "smart_management.get_ten_equipment_records"
    ["time", "place", "status", "id", "record_id"]

def getComfortServiceRecord : Handler :=
  get false "select * from comfort_service_record LIMIT 1" 0
    "smart_management.get_comfort_service_record"
    ["wet", "temp", "alarm", "record_id"]

def getTenComfortServiceRecords : Handler :=
  getTen "select * from comfort_service_record LIMIT 10" 0
    "smart_management.get_ten_comfort_service_records"
    ["wet", "temp", "alarm"]

/-! `service/smartlive/init.lua`; the global `date` is never set. -/

def setComEnv : Handler :=
  .set
    (query ("insert into community_environment_record (id, time, temp, wet, pm_ten, pm_tpf)" ++
      " values (%d,'%s',%d,%d,%d,%d)") 6)

def setHumantempRecord : Handler :=
  .set
    ⟨bytes ("insert into human_temp_record (staff_id,date,time,temp,place)" ++
      " values (%d,'%s','%s',%d,'%s')"),
      [some 0, none, some 1, some 2, some 3]⟩

def setPersonnelMobilityRecord : Handler :=
  .set (query "insert into personnel_mobility_record (time,trand) values ('%s','%s')" 2)

def setElectricityRecord : Handler :=
  .set
    (query ("insert into electricity_record (date,day_use,week_use,month_use,year_use)" ++
      " values ('%s',%d,%d,%d,%d)") 5)

def setWaterRecord : Handler :=
  .set
    (query ("insert into water_record (date,day_use,week_use,month_use,year_use)" ++
      " values ('%s',%d,%d,%d,%d)") 5)

def setGarbageRecord : Handler :=
  .set
    (query ("insert into garbage_record (record_id,id,capacity,clean,place,time)" ++
      " values (%d,%d,%d,%d,'%s','%s')") 6)

def getComEnvRecord : Handler :=
  get false "select * from community_environment_record where id = %d LIMIT 1" 1
    "smart_live.get_com_env_record"
    ["id", "wet", "temp", "pm_ten", "pm_tpf"]

def getTenComEnvRecords : Handler :=
  getTen "select * from community_environment_record where id = %d LIMIT 10" 1
    "smart_live.get_ten_com_env_records"
    ["id", "wet", "temp", "pm_ten", "pm_tpf"]

def getTempTotalRecord : Handler :=
  get false "select * from temp_total LIMIT 1" 0
    "smart_live.get_temp_total_record"
    ["time", "normal", "abnormal"]

def getTenTempTotalRecords : Handler :=
  getTen "select * from temp_total where LIMIT 10" 0
    "smart_live.get_ten_temp_total_records"
    ["time", "normal", "abnormal"]

def getHumantempRecord : Handler :=
  get false "select * from human_temp_record where staff_id = %d LIMIT 1" 1
    "smart_live.get_humantemp_record"
    ["staff_id", "date", "record_id", "temp", "time", "place"]

def getElepowerRecord : Handler :=
  get false "select * from electricity_record LIMIT 1" 0
    "smart_live.get_elepower_record"
    ["day_use", "week_use", "month_use", "year_use", "date"]

def getTenElepowerRecords : Handler :=
  getTen "select * from electricity_record where LIMIT 10" 0
    "smart_live.get_ten_elepower_records"
    ["day_use", "week_use", "month_use", "year_use", "date"]

def getWaterpowerRecord : Handler :=
  get false "select * from water_record LIMIT 1" 0
    "smart_live.get_waterpower_records"
    ["day_use", "week_use", "month_use", "year_use", "date"]

def getTenWaterpowerRecords : Handler :=
  getTen "select * from water_record where LIMIT 10" 0
    "smart_live.get_ten_waterpower_records"
    ["day_use", "week_use", "month_use", "year_use", "date"]

def getGarbageRecord : Handler :=
  get false "select * from garbage_record where record_id = '%s' LIMIT 1" 1
    "smart_live.get_garbage_record"
    ["record_id", "clean", "capacity", "place", "id", "time"]

/-! `service/unattended/init.lua` -/

def getTenRecentAccessRecords : Handler :=
  .accessRecords (query "select * from visit_record LIMIT 10 " 0)

def getFiveminFootTraffic : Handler := .footTraffic footTrafficMessage

def getUnattendedCarRecord : Handler :=
  .carRecord (query "select * from car_record LIMIT 10" 0) dateParkingTrafficMessage
    (["date", "car_in", "car_out"].map bytes)

def setUnattendedVisitRecord : Handler :=
  .setVisit
    (query "insert into visit_record (id,monitor_video,kind,in_out) values (%d,%s,%s,%s)" 4)

inductive Service
  | smartmanagement
  | smartlive
  | unattended
  deriving DecidableEq

/-- `s.resp` of a service. -/
def resp : Service → List (Bytes × Handler)
  | .smartmanagement =>
    [(bytes "set_wet_temp_record", setWetTempRecord),
      (bytes "set_camera_record", setCameraRecord),
      (bytes "set_somke_record", setSomkeRecord),
      (bytes "set_rescue_platform_record", setRescuePlatformRecord),
      (bytes "set_theft_against_record", setTheftAgainstRecord),
      (bytes "set_property_guarantee_record", setPropertyGuaranteeRecord),
      (bytes "set_police_service_record", setPoliceServiceRecord),
      (bytes "set_fire_control_record", setFireControlRecord),
      (bytes "set_elevator_record", setElevatorRecord),
      (bytes "set_equipment_record", setEquipmentRecord),
      (bytes "set_comfort_service_record", setComfortServiceRecord),
      (bytes "get_wet_temp_record", getWetTempRecord),
      (bytes "get_ten_wet_temp_records", getTenWetTempRecords),
      (bytes "get_camera_record", getCameraRecord),
      (bytes "get_ten_camera_records", getTenCameraRecords),
      (bytes "get_smoke_record", getSmokeRecord),
      (bytes "get_ten_smoke_records", getTenSmokeRecords),
      (bytes "get_rescue_platform_record", getRescuePlatformRecord),
      (bytes "get_ten_rescue_platform_records", getTenRescuePlatformRecords),
      (bytes "get_theft_against_record", getTheftAgainstRecord),
      (bytes "get_ten_theft_against_records", getTenTheftAgainstRecords),
      (bytes "get_property_guarantee_record", getPropertyGuaranteeRecord),
      (bytes "get_ten_property_guarantee_records", getTenPropertyGuaranteeRecords),
      (bytes "get_police_service_record", getPoliceServiceRecord),
      (bytes "get_ten_police_service_records", getTenPoliceServiceRecords),
      (bytes "get_fire_control_record", getFireControlRecord),
      (bytes "get_ten_fire_control_records", getTenFireControlRecords),
      (bytes "get_elevator_record", getElevatorRecord),
      (bytes "get_ten_elevator_records", getTenElevatorRecords),
      (bytes "get_equipment_record", getEquipmentRecord),
      (bytes "get_ten_equipment_records", getTenEquipmentRecords),
      (bytes "get_comfort_service_record", getComfortServiceRecord),
      (bytes "get_ten_comfort_service_records", getTenComfortServiceRecords)]
  | .smartlive =>
    [(bytes "set_com_env", setComEnv),
      (bytes "set_humantemp_record", setHumantempRecord),
      (bytes "set_personnel_mobility_record", setPersonnelMobilityRecord),
      (bytes "set_electricity_record", setElectricityRecord),
      (bytes "set_water_record", setWaterRecord),
      (bytes "set_garbage_record", setGarbageRecord),
      (bytes "get_com_env_record", getComEnvRecord),
      (bytes "get_ten_com_env_records", getTenComEnvRecords),
      (bytes "get_temp_total_record", getTempTotalRecord),
      (bytes "get_ten_temp_total_records", getTenTempTotalRecords),
      (bytes "get_humantemp_record", getHumantempRecord),
      (bytes "get_elepower_record", getElepowerRecord),
      (bytes "get_ten_elepower_records", getTenElepowerRecords),
      (bytes "get_waterpower_record", getWaterpowerRecord),
      (bytes "get_ten_waterpower_records", getTenWaterpowerRecords),
      (bytes "get_garbage_record", getGarbageRecord)]
  | .unattended =>
    [(bytes "get_ten_recent_access_records", getTenRecentAccessRecords),
      (bytes "get_fivemin_foot_traffic", getFiveminFootTraffic),
      (bytes "get_unattended_car_record", getUnattendedCarRecord),
      (bytes "set_unattended_visit_record", setUnattendedVisitRecord)]

/-- A command of the agent: the handler it calls, how many fields after the command it forwards,
and what it answers when the call returns nothing or false. -/
structure Command where
  service : Service
  remote : Bytes
  forwarded : ℕ
  failed : Option Bytes
  deriving DecidableEq

/-- A command that stays silent when the call fails. -/
def command (service : Service) (remote : String) (forwarded : ℕ) : Command :=
  ⟨service, bytes remote, forwarded, none⟩

/-- The commands of `s.client` by their names. -/
def client : List (Bytes × Command) :=
  [(bytes "set_wet_temp_record", command .smartmanagement "set_wet_temp_record" 5),
    (bytes "set_camera_record", command .smartmanagement "set_camera_record" 6),
    (bytes "set_somke_record", command .smartmanagement "set_somke_record" 4),
    (bytes "set_rescue_platform_record", command .smartmanagement "set_rescue_platform_record" 4),
    (bytes "set_theft_against_record", command .smartmanagement "set_theft_against_record" 3),
    (bytes "set_property_guarantee_record",
      command .smartmanagement "set_property_guarantee_record" 3),
    (bytes "set_police_service_record", command .smartmanagement "set_police_service_record" 3),
    (bytes "set_fire_control_record", command .smartmanagement "set_fire_control_record" 4),
    (bytes "set_elevator_record", command .smartmanagement "set_elevator_record" 6),
    (bytes "set_equipment_record", command .smartmanagement "set_equipment_record" 5),
    (bytes "set_comfort_service_record", command .smartmanagement "set_comfort_service_record" 3),
    (bytes "get_wet_temp_record", command .smartmanagement "get_wet_temp_record" 1),
    (bytes "get_ten_wet_temp_records", command .smartmanagement "get_ten_wet_temp_records" 1),
    (bytes "get_camera_record", command .smartmanagement "get_camera_record" 1),
    (bytes "get_ten_camera_records", command .smartmanagement "get_ten_camera_records" 1),
    (bytes "get_smoke_record", command .smartmanagement "get_smoke_record" 1),
    (bytes "get_ten_smoke_records", command .smartmanagement "get_ten_smoke_records" 1),
    (bytes "get_rescue_platform_record", command .smartmanagement "get_rescue_platform_record" 1),
    (bytes "get_ten_rescue_platform_records",
      command .smartmanagement "get_ten_rescue_platform_records" 1),
    (bytes "get_theft_against_record", command .smartmanagement "get_theft_against_record" 1),
    (bytes "get_ten_theft_against_records",
      command .smartmanagement "get_ten_theft_against_records" 1),
    (bytes "get_property_guarantee_record",
      command .smartmanagement "get_property_guarantee_record" 1),
    (bytes "get_ten_property_guarantee_records",
      command .smartmanagement "get_ten_property_guarantee_records" 1),
    (bytes "get_police_service_record", command .smartmanagement "get_police_service_record" 0),
    (bytes "get_ten_police_service_records",
      command .smartmanagement "get_ten_police_service_records" 0),
    (bytes "get_fire_control_record",
      command .smartmanagement "get_ten_police_service_records" 1),
    (bytes "get_ten_fire_control_records",
      command .smartmanagement "get_ten_fire_control_records" 1),
    (bytes "get_elevator_record", command .smartmanagement "get_elevator_record" 1),
    (bytes "get_ten_elevator_records", command .smartmanagement "get_ten_elevator_records" 1),
    (bytes "get_equipment_record", command .smartmanagement "get_equipment_record" 1),
    (bytes "get_ten_equipment_records", command .smartmanagement "get_ten_equipment_records" 1),
    (bytes "get_comfort_service_record", command .smartmanagement "get_comfort_service_record" 0),
    (bytes "set_com_env", command .smartlive "set_com_env" 6),
    (bytes "set_humantemp_record", command .smartlive "set_humantemp_record" 4),
    (bytes "set_personnel_mobility_record", command .smartlive "set_personnel_mobility_record" 2),
    (bytes "set_electricity_record", command .smartlive "set_electricity_record" 5),
    (bytes "set_water_record", command .smartlive "set_water_record" 5),
    (bytes "set_garbage_record", command .smartlive "set_garbage_record" 6),
    (bytes "get_com_env_record", command .smartlive "get_com_env_record" 1),
    (bytes "get_ten_com_env_records", command .smartlive "get_ten_com_env_records" 1),
    (bytes "get_temp_total_record", command .smartlive "get_temp_total_record" 0),
    (bytes "get_ten_temp_total_records", command .smartlive "get_ten_temp_total_records" 0),
    (bytes "get_humantemp_record", command .smartlive "get_humantemp_record" 1),
    (bytes "get_elepower_record", command .smartlive "get_elepower_record" 0),
    (bytes "get_ten_elepower_records", command .smartlive "get_ten_elepower_records" 0),
    (bytes "get_waterpower_record", command .smartlive "get_waterpower_record" 0),
    (bytes "get_ten_waterpower_records", command .smartlive "get_ten_waterpower_records" 0),
    (bytes "get_garbage_record", command .smartlive "get_humantemp_record" 1),
    (bytes "get_ten_recent_access_records",
      ⟨.unattended, bytes "get_ten_recent_access_records", 0,
        some (bytes "查询前十个访问记录失败")⟩),
    (bytes "get_unattended_car_record",
      ⟨.unattended, bytes "get_unattended_car_record", 0,
        some (bytes "查询前十个车流量记录失败")⟩),
    (bytes "get_fivemin_foot_traffic",
      ⟨.unattended, bytes "get_fivemin_foot_traffic", 0,
        some (bytes "查询人流失败")⟩),
    (bytes "set_unattended_visit_record", command .unattended "set_unattended_visit_record" 4)]

/-- `msg[2]`, `msg[3]` and so on, as far as the command forwards them. -/
def Command.params (c : Command) (msg : List Bytes) : List Arg :=
  (List.range c.forwarded).map fun i => msg[i + 1]?

/-- `s.call` of the command. The dispatcher answers a handler that raises, or that the service
does not have, with an empty message. -/
def Command.call (c : Command) (env : Env) (msg : List Bytes) (outcome : Outcome) : Option Ret :=
  ((resp c.service).lookup c.remote).bind fun h => h.run env (c.params msg) outcome

/-- The one element of the message that the command returns, if it returns one. -/
def Command.reply (c : Command) (env : Env) (msg : List Bytes) (outcome : Outcome) : Option Ret :=
  match c.call env msg outcome with
  | none | some (.bool false) => c.failed.map .str
  | some ret => some ret

section Gateway

variable {Num Addr : Type} [DecidableEq Num] [LuaNumber Num]

/-- What the gateway does with a reply: `table.concat` faults on a boolean. -/
def sendReply (g : Gateway.State Num Addr) (p : Num) : Option Ret → List (Gateway.Out Num Addr)
  | some (.str s) => (Gateway.send g p [.str s]).outs
  | some (.bool _) | none => []

/-- What the gateway writes in the end for a message that it forwards to the agent. -/
def answers (g : Gateway.State Num Addr) (p : Num) (env : Env) (msg : List Bytes)
    (outcome : Outcome) : List (Gateway.Out Num Addr) :=
  match client.lookup (msg.headD []) with
  | none => []
  | some c => sendReply g p (c.reply env msg outcome)

end Gateway

end Ue4Background.DataServices
